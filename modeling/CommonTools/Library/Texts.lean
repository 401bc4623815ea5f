import Mathlib.Data.String.Basic
import Mathlib.Data.List.TakeWhile
import Mathlib.Data.Nat.Digits.Defs

namespace Texts
open List hiding head

-- A text that can stand before a separator: the first separator ends it.
def Without (sep : Char) (text : String) : Prop := sep ∉ text.toList

instance (sep : Char) (text : String) : Decidable (Without sep text) := inferInstanceAs (Decidable (¬ _))

theorem append_sep_inj (free : sep ∉ left) (free' : sep ∉ left')
    (same : left ++ sep :: right = left' ++ sep :: right') : left = left' ∧ right = right' := by
  induction left generalizing left' with
  | nil =>
    cases left' with
    | nil => exact ⟨rfl,by simpa using same⟩
    | cons head tail =>
      have equal : sep = head := by simpa using (List.cons.inj same).1
      exact absurd (by simp [equal]) free'
  | cons head tail ih =>
    cases left' with
    | nil =>
      have equal : head = sep := (List.cons.inj same).1
      exact absurd (by simp [equal]) free
    | cons head' tail' =>
      obtain ⟨equal,rest⟩ := List.cons.inj same
      have tails := ih (fun present => free (mem_cons_of_mem _ present))
        (fun present => free' (mem_cons_of_mem _ present)) rest
      exact ⟨by rw [equal,tails.1],tails.2⟩

section Cutting
variable {α : Type} [DecidableEq α] {sep : α} {left : List α}

theorem unequal (free : sep ∉ left) : ∀ a ∈ left, decide (a ≠ sep) = true := fun _ inside => decide_eq_true fun same => free (same ▸ inside)

theorem takeWhile_sep (free : sep ∉ left) : (left ++ sep :: right).takeWhile (· ≠ sep) = left := by
  rw [takeWhile_append_of_pos (unequal free)]
  simp

theorem dropWhile_sep (free : sep ∉ left) : (left ++ sep :: right).dropWhile (· ≠ sep) = sep :: right := by
  rw [dropWhile_append_of_pos (unequal free)]
  simp

theorem takeWhile_free (free : sep ∉ left) : left.takeWhile (· ≠ sep) = left := takeWhile_eq_self_iff.mpr (unequal free)

theorem dropWhile_free (free : sep ∉ left) : left.dropWhile (· ≠ sep) = [] := dropWhile_eq_nil_iff.mpr (unequal free)

@[elab_as_elim]
theorem cut_induction (sep : α) {motive : List α → Prop} (single : ∀ text, sep ∉ text → motive text)
    (cut : ∀ head rest, sep ∉ head → motive rest → motive (head ++ sep :: rest)) (text : List α) : motive text := by
  induction count : text.length using Nat.strong_induction_on generalizing text with
  | _ n ih =>
    by_cases inside : sep ∈ text
    · obtain ⟨head,rest,rfl,free⟩ := eq_append_cons_of_mem inside
      refine cut head rest free (ih _ ?_ rest rfl)
      rw [← count,length_append,length_cons]
      omega
    · exact single text inside

theorem splitOn_free {text piece : List α} (inside : piece ∈ text.splitOn sep) : sep ∉ piece := by
  induction text using cut_induction sep with
  | single text free =>
    rw [splitOn_eq_singleton free,mem_singleton] at inside
    exact inside ▸ free
  | cut head rest free ih =>
    rw [splitOn_append_cons_self_of_not_mem free] at inside
    rcases mem_cons.mp inside with rfl | later
    · exact free
    · exact ih later

-- The text before the first place where the needle stands, and the text behind it.
def search (needle : List α) : List α → Option (List α × List α)
  | [] => if needle = [] then some ([],[]) else none
  | a :: rest =>
    if needle.isPrefixOf (a :: rest) then some ([],(a :: rest).drop needle.length)
    else (search needle rest).map fun found => (a :: found.1,found.2)

theorem search_first {needle front : List α} (unfound : ∀ k < front.length, ¬ needle <+: (front ++ (needle ++ back)).drop k) :
    search needle (front ++ (needle ++ back)) = some (front,back) := by
  induction front with
  | nil =>
    have here : needle.isPrefixOf (needle ++ back) = true := List.isPrefixOf_iff_prefix.mpr (prefix_append _ _)
    cases whole : needle ++ back with
    | nil => simp [search,append_eq_nil_iff.mp whole]
    | cons a rest => rw [nil_append,search,← whole,if_pos here,drop_left]
  | cons a front ih =>
    have later := ih fun k less => unfound (k + 1) (Nat.succ_lt_succ less)
    have away : needle.isPrefixOf (a :: (front ++ (needle ++ back))) ≠ true := fun found =>
      unfound 0 (Nat.succ_pos _) (List.isPrefixOf_iff_prefix.mp found)
    rw [cons_append,search,if_neg away,later]
    rfl

theorem search_front {needle front : List α} (free : sep ∉ front) :
    search (sep :: needle) (front ++ sep :: (needle ++ back)) = some (front,back) := by
  refine search_first fun k less found => free ?_
  have same : front[k]? = some sep := by
    obtain ⟨more,whole⟩ := found
    have first := congrArg List.head? whole
    rw [List.head?_drop,getElem?_append_left less] at first
    exact first.symm
  exact mem_of_getElem? same

end Cutting

theorem joined_inj (free : Without sep left) (free' : Without sep left')
    (same : left ++ String.singleton sep ++ right = left' ++ String.singleton sep ++ right') : left = left' ∧ right = right' := by
  have lists : left.toList ++ sep :: right.toList = left'.toList ++ sep :: right'.toList := by
    have := congrArg String.toList same
    simpa using this
  obtain ⟨one,two⟩ := append_sep_inj free free' lists
  exact ⟨String.toList_inj.mp one,String.toList_inj.mp two⟩

theorem append_left_inj {front one two : String} (same : front ++ one = front ++ two) : one = two := by
  have lists := congrArg String.toList same
  simp only [String.toList_append] at lists
  exact String.toList_inj.mp (append_cancel_left lists)

theorem without_append : Without sep (left ++ right) ↔ Without sep left ∧ Without sep right := by
  simp [Without]

theorem number_digits {n : Nat} {c : Char} (inside : c ∈ (toString n).toList) : c.isDigit = true := by
  rw [Nat.toString_eq_repr,Nat.toList_repr] at inside
  exact Nat.isDigit_of_mem_toDigits (by omega) (by omega) inside

theorem without_number {sep : Char} (other : sep.isDigit = false) {n : Nat} : Without sep (toString n) := by
  intro present
  have digit := number_digits present
  rw [other] at digit
  cases digit

theorem number_inj {i j : Nat} (same : toString i = toString j) : i = j := by
  have lists := congrArg String.toList same
  rw [Nat.toString_eq_repr,Nat.toString_eq_repr,Nat.toList_repr,Nat.toList_repr] at lists
  rw [← Nat.ofDigitChars_ten_toDigits (n := i),lists,Nat.ofDigitChars_ten_toDigits]

def isWhite (c : Char) : Bool := decide (c = ' ' ∨ 9 ≤ c.toNat ∧ c.toNat ≤ 13)

def leadingNumber (chars : List Char) : Nat := Nat.ofDigitChars 10 (chars.takeWhile Char.isDigit) 0

def atoi (text : String) : Int :=
  match text.toList.dropWhile isWhite with
  | '-' :: rest => - (leadingNumber rest : Int)
  | '+' :: rest => leadingNumber rest
  | rest => leadingNumber rest

theorem leadingNumber_number (n : Nat) : leadingNumber (toString n).toList = n := by
  unfold leadingNumber
  rw [takeWhile_eq_self_iff.mpr fun c => number_digits,Nat.toString_eq_repr,Nat.toList_repr,
    Nat.ofDigitChars_ten_toDigits]

theorem digit_plain (digit : c.isDigit = true) : isWhite c = false ∧ c ≠ '-' ∧ c ≠ '+' := by
  refine ⟨?_,?_,?_⟩
  rotate_left
  · rintro rfl; cases digit
  · rintro rfl; cases digit
  have low : 48 ≤ c.toNat := by
    rw [Char.isDigit,Bool.and_eq_true,decide_eq_true_iff] at digit
    exact digit.1
  rw [isWhite,decide_eq_false_iff_not]
  rintro (rfl | ⟨_,high⟩)
  · exact absurd low (by decide)
  · omega

theorem atoi_number {n : Nat} : atoi (toString n) = n := by
  have read := leadingNumber_number n
  unfold atoi
  cases chars : (toString n).toList with
  | nil =>
    rw [chars] at read
    exact congrArg Int.ofNat read
  | cons c rest =>
    obtain ⟨space,minus,plus⟩ := digit_plain (number_digits (chars ▸ mem_cons_self : c ∈ (toString n).toList))
    have start : (c :: rest).dropWhile isWhite = c :: rest := by simp [dropWhile,space]
    rw [chars] at read
    rw [start]
    split
    · rename_i same; exact absurd (List.cons.inj same).1 minus
    · rename_i same; exact absurd (List.cons.inj same).1 plus
    · exact congrArg Int.ofNat read

def fields (sep : Char) (text : String) : List String := (text.toList.splitOn sep).map String.ofList

theorem fields_single (free : Without sep text) : fields sep text = [text] := by
  unfold fields
  rw [splitOn_eq_singleton free]
  simp

theorem fields_joined (free : Without sep head) (rest : String) :
    fields sep (head ++ String.singleton sep ++ rest) = head :: fields sep rest := by
  unfold fields
  have lists : (head ++ String.singleton sep ++ rest).toList = head.toList ++ sep :: rest.toList := by simp
  rw [lists,splitOn_append_cons_self,splitOn_eq_singleton free]
  simp

-- The lines that getline gives one after the other; the first argument is what has
-- been read of the next one.
def getlines (line : List Char) : List Char → List String
  | [] => if line = [] then [] else [String.ofList line]
  | c :: rest => if c = '\n' then String.ofList line :: getlines [] rest else getlines (line ++ [c]) rest

theorem getlines_free (free : '\n' ∉ line) : ∀ read ∈ getlines line text, Without '\n' read := by
  induction text generalizing line with
  | nil =>
    intro read inside
    rw [getlines] at inside
    split at inside
    · cases inside
    · rw [mem_singleton.mp inside,Without,String.toList_ofList]
      exact free
  | cons c text ih =>
    intro read inside
    rw [getlines] at inside
    split at inside
    · rcases mem_cons.mp inside with rfl | inside
      · rw [Without,String.toList_ofList]
        exact free
      · exact ih not_mem_nil read inside
    · rename_i other
      refine ih (fun listed => ?_) read inside
      rcases mem_append.mp listed with listed | listed
      · exact free listed
      · exact other (mem_singleton.mp listed).symm

def written (lines : List String) : List Char := lines.flatMap fun line => line.toList ++ ['\n']

theorem getlines_line (free : '\n' ∉ text) : getlines line (text ++ '\n' :: rest) = String.ofList (line ++ text) :: getlines [] rest := by
  induction text generalizing line with
  | nil => simp [getlines]
  | cons c text ih =>
    have other : c ≠ '\n' := fun same => free (by simp [same])
    rw [cons_append,getlines,if_neg other,ih fun inside => free (mem_cons_of_mem _ inside)]
    simp

theorem getlines_written (free : ∀ line ∈ lines, Without '\n' line) : getlines [] (written lines) = lines := by
  induction lines with
  | nil => rfl
  | cons line lines ih =>
    have rest := ih fun other inside => free other (mem_cons_of_mem _ inside)
    have parts : written (line :: lines) = line.toList ++ '\n' :: written lines := by simp [written]
    rw [parts,getlines_line (free line mem_cons_self),rest,nil_append,String.ofList_toList]

end Texts
