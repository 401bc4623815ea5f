import CommonTools.Placement.Proctable

namespace CommonTools.Placement.Flux
open Numerals FeDaemon
open List hiding count

-- A host name is what comes before its last digits, and a node number.
def nonNumeric (name : Bytes) : Bytes := name.rdropWhile isDigit

def nodeDigits (name : Bytes) : Bytes := name.rtakeWhile isDigit

def nodeNumber (name : Bytes) : Option Nat := if nodeDigits name = [] then none else some (digitsValue (nodeDigits name))

def zeros (count : Nat) : Bytes := List.replicate count 48

-- When the code pads: it compares how long the two parts are.
def Padded (own name : Bytes) : Prop :=
  (splitAtNid name).1.length = (splitAtNid own).1.length ∧ (splitAtNid name).2.length < (splitAtNid own).2.length

instance (own name : Bytes) : Decidable (Padded own name) := inferInstanceAs (Decidable (_ ∧ _))

def padded (own name : Bytes) : Bytes :=
  if Padded own name then
    (splitAtNid name).1 ++ zeros ((splitAtNid own).2.length - (splitAtNid name).2.length) ++ (splitAtNid name).2
  else name

theorem reZeroPadNid_padded :
    (reZeroPadNid gethostname hostnamePrefix hostnameSuffix).1 = padded gethostname.1 (join hostnamePrefix hostnameSuffix).1 := by
  exact apply_ite Subtype.val _ _ _

def Restored (own name result : Bytes) : Prop :=
  result = name ∨ nonNumeric name = nonNumeric own ∧
    ∃ count, result = nonNumeric name ++ zeros count ++ nodeDigits name ∧ count + (nodeDigits name).length = (nodeDigits own).length

-- A name without a number that is padded, and the same name with zeros behind it. The code takes a name of digits
-- only for one without a number.
def Merged (own name other : Bytes) : Prop :=
  Padded own name ∧ (splitAtNid name).2 = [] ∧ ∃ count, 0 < count ∧ count ≤ (splitAtNid own).2.length ∧
    (name.all isDigit = true → count = (splitAtNid own).2.length) ∧ other = name ++ zeros count

section Splitting
variable {name own : Bytes}

theorem parts (name : Bytes) : nonNumeric name ++ nodeDigits name = name := rdropWhile_append_rtakeWhile

theorem split_parts (name : Bytes) : (splitAtNid name).1 ++ (splitAtNid name).2 = name := by
  unfold splitAtNid
  split
  · exact append_nil name
  · exact parts name

theorem zeros_all (count : Nat) : ∀ b ∈ zeros count, isDigit b = true := by
  intro b inside
  cases eq_of_mem_replicate inside
  decide

theorem append_digits (all : ∀ b ∈ digits, isDigit b = true) :
    nonNumeric (name ++ digits) = nonNumeric name ∧ nodeDigits (name ++ digits) = nodeDigits name ++ digits := by
  induction digits using reverseRecOn with
  | nil => simp
  | append_singleton digits last ih =>
    obtain ⟨before,number⟩ := ih fun b inside => all b (mem_append_left _ inside)
    have digit : isDigit last = true := all last (by simp)
    rw [← append_assoc]
    refine ⟨(rdropWhile_concat_pos _ _ _ digit).trans before,(rtakeWhile_concat_pos _ _ _ digit).trans ?_⟩
    rw [← nodeDigits,number,append_assoc]

theorem nonNumeric_parts : nonNumeric (nonNumeric name) = nonNumeric name ∧ nodeDigits (nonNumeric name) = [] := by
  refine ⟨rdropWhile_idempotent _ _,rtakeWhile_eq_nil_iff.mpr fun some' => ?_⟩
  exact rdropWhile_last_not _ _ some'

theorem split_digits (all : name.all isDigit = true) : splitAtNid name = (name,[]) := if_pos all

theorem split_other (other : ¬ name.all isDigit = true) : splitAtNid name = (nonNumeric name,nodeDigits name) := if_neg other

theorem nonNumeric_nil : nonNumeric name = [] ↔ name.all isDigit = true := by
  rw [nonNumeric,rdropWhile_eq_nil_iff,all_eq_true]

theorem split_none (none' : (splitAtNid name).2 = []) : (splitAtNid name).1 = name := by
  have whole := split_parts name
  rwa [none',append_nil] at whole

theorem split_some (some' : (splitAtNid name).2 ≠ []) : splitAtNid name = (nonNumeric name,nodeDigits name) := by
  refine split_other fun all => some' ?_
  rw [split_digits all]

theorem digitsValue_zeros : digitsValue (zeros count ++ digits) = digitsValue digits := by
  induction count with
  | zero => rfl
  | succ count ih => exact ih

end Splitting

section Padding
variable {own name other : Bytes}

theorem padded_longer (pads : Padded own name) : padded own name ≠ name := by
  intro same
  have lengths := congrArg List.length same
  have whole := congrArg List.length (split_parts name)
  have shorter := pads.2
  rw [padded,if_pos pads] at lengths
  simp only [length_append,zeros,length_replicate] at lengths whole
  omega

theorem restored_exact : Restored own name (padded own name) ↔ (Padded own name → nonNumeric name = nonNumeric own) := by
  by_cases pads : Padded own name
  · constructor
    · rintro (same | ⟨sibling,_⟩) _
      · exact absurd same (padded_longer pads)
      · exact sibling
    · intro siblings
      have sibling := siblings pads
      have ownSplit := split_some (length_pos_iff.mp (Nat.zero_lt_of_lt pads.2))
      have some' : nonNumeric own ≠ [] := fun none' => by
        have digits := split_digits (nonNumeric_nil.mp none')
        have shorter := pads.2
        rw [digits] at shorter
        exact absurd shorter (Nat.not_lt_zero _)
      have split : splitAtNid name = _ := split_other fun all => some' (sibling ▸ nonNumeric_nil.mpr all)
      have shorter := pads.2
      refine .inr ⟨sibling,(splitAtNid own).2.length - (splitAtNid name).2.length,?_,?_⟩
      · rw [padded,if_pos pads,split]
      · rw [ownSplit,split] at shorter ⊢
        exact Nat.sub_add_cancel (Nat.le_of_lt shorter)
  · exact ⟨fun _ pads' => absurd pads' pads,fun _ => .inl (if_neg pads)⟩

theorem padded_none (pads : Padded own name) (none' : (splitAtNid name).2 = []) :
    padded own name = name ++ zeros (splitAtNid own).2.length := by
  rw [padded,if_pos pads,none',split_none none']
  simp

theorem split_append (other : ¬ name.all isDigit = true) (none' : (splitAtNid name).2 = [])
    (all : ∀ b ∈ digits, isDigit b = true) : splitAtNid (name ++ digits) = (name,digits) := by
  obtain ⟨before,number⟩ := append_digits all
  have split := split_other other
  have nonDigit : ¬ (name ++ digits).all isDigit = true := by
    rw [all_append,Bool.and_eq_true]
    exact fun both => other both.1
  have first := split_none none'
  rw [split] at first none'
  rw [split_other nonDigit,before,number]
  exact Prod.ext first (by rw [show nodeDigits name = [] from none',nil_append])

theorem merged_same (merged : Merged own name other) : padded own other = padded own name := by
  obtain ⟨pads,none',count,positive,most,digits,rfl⟩ := merged
  rw [padded_none pads none']
  by_cases all : name.all isDigit = true
  · -- Such a name is longer than what is padded.
    have width := digits all
    have long : (name ++ zeros count).all isDigit = true := by
      rw [all_append,all,Bool.true_and,all_eq_true]
      exact zeros_all count
    have skip : ¬ Padded own (name ++ zeros count) := by
      rintro ⟨lengths,_⟩
      have first : name.length = (splitAtNid own).1.length := by rw [← pads.1,split_digits all]
      have whole : (name ++ zeros count).length = (splitAtNid own).1.length := by rw [← lengths,split_digits long]
      rw [length_append,zeros,length_replicate] at whole
      omega
    rw [padded,if_neg skip,width]
  · have split := split_append all none' (zeros_all count)
    have first := pads.1
    rw [split_none none'] at first
    by_cases short : count < (splitAtNid own).2.length
    · have pads' : Padded own (name ++ zeros count) := by
        refine ⟨by rw [split,first],?_⟩
        rw [split]
        simpa [zeros] using short
      rw [padded,if_pos pads',split,append_assoc]
      simp only [zeros,length_replicate,replicate_append_replicate]
      rw [Nat.sub_add_cancel most]
    · have skip : ¬ Padded own (name ++ zeros count) := by
        rintro ⟨_,shorter⟩
        rw [split] at shorter
        exact short (by simpa [zeros] using shorter)
      rw [padded,if_neg skip,show count = (splitAtNid own).2.length by omega]

theorem padded_key (some' : (splitAtNid name).2 ≠ []) :
    nonNumeric ((splitAtNid name).1 ++ (zeros count ++ (splitAtNid name).2)) = nonNumeric name ∧
      nodeNumber ((splitAtNid name).1 ++ (zeros count ++ (splitAtNid name).2)) = nodeNumber name := by
  have split := split_some some'
  rw [split] at some' ⊢
  have all : ∀ b ∈ zeros count ++ nodeDigits name, isDigit b = true := by
    intro b inside
    exact (mem_append.mp inside).elim (zeros_all count b) mem_rtakeWhile_imp
  obtain ⟨before,number⟩ := append_digits all
  obtain ⟨again,none'⟩ := nonNumeric_parts
  refine ⟨before.trans again,?_⟩
  have digits : nodeDigits name ≠ [] := some'
  rw [nodeNumber,nodeNumber,number,none',nil_append,if_neg (by simp [digits]),if_neg digits,digitsValue_zeros]

theorem padded_number (some' : (splitAtNid name).2 ≠ []) :
    nonNumeric (padded own name) = nonNumeric name ∧ nodeNumber (padded own name) = nodeNumber name := by
  by_cases pads : Padded own name
  · rw [padded,if_pos pads,append_assoc]
    exact padded_key some'
  · rw [padded,if_neg pads]
    exact ⟨rfl,rfl⟩

theorem numberless_merged (pads : Padded own name) (none' : (splitAtNid name).2 = []) (apart : name ≠ other)
    (same : padded own other = padded own name) : Merged own name other := by
  have width := Nat.zero_lt_of_lt pads.2
  rw [padded_none pads none'] at same
  by_cases pads' : Padded own other
  · have some' : (splitAtNid other).2 ≠ [] := by
      intro none''
      rw [padded_none pads' none''] at same
      exact apart (append_cancel_right same).symm
    have first : (splitAtNid other).1.length = name.length := by rw [pads'.1,← pads.1,split_none none']
    rw [padded,if_pos pads',append_assoc] at same
    obtain ⟨start,digits⟩ := append_inj same first
    have run : (splitAtNid other).2 = zeros (splitAtNid other).2.length := by
      refine eq_replicate_iff.mpr ⟨rfl,fun b inside => ?_⟩
      exact eq_of_mem_replicate (digits ▸ mem_append_right _ inside)
    have whole : other = name ++ zeros (splitAtNid other).2.length := by rw [← run,← start,split_parts]
    refine ⟨pads,none',_,length_pos_iff.mpr some',Nat.le_of_lt pads'.2,fun all => ?_,whole⟩
    have long : other.all isDigit = true := by
      rw [whole,all_append,all,Bool.true_and,all_eq_true]
      exact zeros_all _
    exact absurd (by rw [split_digits long]) some'
  · rw [padded,if_neg pads'] at same
    exact ⟨pads,none',(splitAtNid own).2.length,width,Nat.le_refl _,fun _ => rfl,same⟩

theorem numbered_apart (apart : (nonNumeric name,nodeNumber name) ≠ (nonNumeric other,nodeNumber other))
    (some' : (splitAtNid other).2 ≠ []) (unpadded : ¬ Padded own name ∨ (splitAtNid name).2 ≠ []) : padded own name ≠ padded own other := by
  intro same
  obtain ⟨before,number⟩ := @padded_number own other some'
  have own' : nonNumeric (padded own name) = nonNumeric name ∧ nodeNumber (padded own name) = nodeNumber name := by
    rcases unpadded with skip | numbered
    · rw [padded,if_neg skip]
      exact ⟨rfl,rfl⟩
    · exact padded_number numbered
  exact apart (by rw [← own'.1,← own'.2,same,before,number])

theorem same_merged (apart : (nonNumeric name,nodeNumber name) ≠ (nonNumeric other,nodeNumber other))
    (same : padded own name = padded own other) : Merged own name other ∨ Merged own other name := by
  have differ : name ≠ other := fun equal => apart (by rw [equal])
  by_cases one : Padded own name ∧ (splitAtNid name).2 = []
  · exact .inl (numberless_merged one.1 one.2 differ same.symm)
  by_cases two : Padded own other ∧ (splitAtNid other).2 = []
  · exact .inr (numberless_merged two.1 two.2 differ.symm same)
  -- Neither is padded without a number.
  have one' := not_and_or.mp one
  have two' := not_and_or.mp two
  by_cases number : (splitAtNid other).2 = []
  · have skip : ¬ Padded own other := two'.resolve_right (not_not.mpr number)
    by_cases number' : (splitAtNid name).2 = []
    · have skip' : ¬ Padded own name := one'.resolve_right (not_not.mpr number')
      rw [padded,padded,if_neg skip,if_neg skip'] at same
      exact absurd same differ
    · exact absurd same.symm (numbered_apart apart.symm number' (.inl skip))
  · exact absurd same (numbered_apart apart number one')

end Padding

-- Exactly the names of siblings are padded if each padded name has the prefix of this host's name, and two names that
-- differ in prefix or number become one exactly if one of them has no number for the code and the other has zeros.
theorem zero_padding_exact (gethostname : CStr) :
    (∀ hostnamePrefix hostnameSuffix, Restored gethostname.1 (join hostnamePrefix hostnameSuffix).1
        (reZeroPadNid gethostname hostnamePrefix hostnameSuffix).1 ↔ (Padded gethostname.1 (join hostnamePrefix hostnameSuffix).1 →
        nonNumeric (join hostnamePrefix hostnameSuffix).1 = nonNumeric gethostname.1)) ∧ ∀ onePrefix oneSuffix twoPrefix twoSuffix,
      (nonNumeric (join onePrefix oneSuffix).1,nodeNumber (join onePrefix oneSuffix).1) ≠
        (nonNumeric (join twoPrefix twoSuffix).1,nodeNumber (join twoPrefix twoSuffix).1) →
      (reZeroPadNid gethostname onePrefix oneSuffix = reZeroPadNid gethostname twoPrefix twoSuffix ↔
        Merged gethostname.1 (join onePrefix oneSuffix).1 (join twoPrefix twoSuffix).1 ∨
          Merged gethostname.1 (join twoPrefix twoSuffix).1 (join onePrefix oneSuffix).1) := by
  refine ⟨fun hostnamePrefix hostnameSuffix => ?_,fun onePrefix oneSuffix twoPrefix twoSuffix apart => ?_⟩
  · rw [reZeroPadNid_padded]
    exact restored_exact
  · rw [← Subtype.val_inj,reZeroPadNid_padded,reZeroPadNid_padded]
    refine ⟨same_merged apart,?_⟩
    rintro (merged | merged)
    · exact (merged_same merged).symm
    · exact merged_same merged

def hostText (text : String) (plain : 0 ∉ ascii text) : CStr := ⟨ascii text,plain⟩

theorem zero_padding_exact_siblings :
    (reZeroPadNid (hostText "nid001" (by decide)) (hostText "nid" (by decide)) (hostText "1" (by decide))).1 = ascii "nid001" ∧
    reZeroPadNid (hostText "nid001" (by decide)) (hostText "nid" (by decide)) (hostText "1" (by decide)) ≠
      reZeroPadNid (hostText "nid001" (by decide)) (hostText "nid" (by decide)) (hostText "12" (by decide)) := by
  refine ⟨by decide,fun same => ?_⟩
  rcases ((zero_padding_exact _).2 _ _ _ _ (by decide)).mp same with ⟨_,none',_⟩ | ⟨_,none',_⟩
  · exact absurd none' (by decide)
  · exact absurd none' (by decide)

theorem strangers_padded : (reZeroPadNid (hostText "nid001" (by decide)) (hostText "tux" (by decide)) (hostText "1" (by decide))).1 =
      ascii "tux001" ∧
    (reZeroPadNid (hostText "nid001" (by decide)) (hostText "12" (by decide)) (hostText "3" (by decide))).1 = ascii "123000" ∧
    reZeroPadNid (hostText "nid001" (by decide)) (hostText "nid" (by decide)) noText =
      reZeroPadNid (hostText "nid001" (by decide)) (hostText "nid" (by decide)) (hostText "0" (by decide)) := by
  decide

end CommonTools.Placement.Flux
