import CommonTools.Placement.RangeLists
import CommonTools.Applications.FluxHistory

namespace CommonTools.Applications.FluxHistory
open Numerals Scanning FeDaemon Placement Placement.Flux List

section Encoding

def suffixText (v : Int) : Bytes := if v < 0 then [] else decimalInt v

-- Some strings, one for each process: a plain one, or those with a common start. `reset` says what
-- a delta is added to behind a suffix that is absent. All values are int64_t.
inductive PrefixEntry (reset : Int → Int) where
  | plain (text : CStr) (some' : text.1 ≠ [])
  | prefixed (start : CStr) (blocks : List Block) (some' : blocks ≠ []) (long : ∀ v ∈ meant reset 0 blocks, IntSized 64 v)

variable {reset : Int → Int}

def PrefixEntry.strings : PrefixEntry reset → List Bytes
  | .plain text _ => [text.1]
  | .prefixed start blocks _ _ => (meant reset 0 blocks).map fun v => start.1 ++ suffixText v

def PrefixEntry.tree : PrefixEntry reset → Ptree
  | .plain text _ => .node text []
  | .prefixed start blocks _ _ => array [.node start [],rangeTree blocks]

def prefixTree (entries : List (PrefixEntry reset)) : Ptree := array (entries.map PrefixEntry.tree)

def PrefixEntry.Kept : PrefixEntry reset → Prop
  | .plain _ _ => True
  | .prefixed _ blocks _ _ =>
    (∀ block ∈ blocks, block.Fits) ∧ (∀ block ∈ blocks, block.Small) ∧ (∀ v ∈ meant reset 0 blocks, 0 ≤ v) ∨
      ∃ d < 0, IntSized 32 d ∧ (blocks = [.pair d 0] ∨ blocks = [.times d 0 0])

end Encoding

section Reading
variable {reset : Int → Int} {entry : PrefixEntry reset}

def PrefixEntry.Readable : PrefixEntry reset → Prop
  | .plain _ _ => True
  | .prefixed _ blocks _ _ => ∀ block ∈ blocks, block.Fits

-- The strings that the code makes of an entry that it can parse.
def PrefixEntry.read : PrefixEntry reset → List Bytes
  | .plain text _ => [text.1]
  | .prefixed start blocks _ _ => if readAll 0 blocks = [] then [start.1] else (readAll 0 blocks).map fun v => start.1 ++ decimalInt v

def joined (call : CStr × CStr) : Bytes := call.1.1 ++ call.2.1

theorem prefixCalls_prefixed :
    prefixCalls (noText,array [.node start [],rangeTree blocks]) = do
      let suffixes ← flattenRangeList (rangeTree blocks)
      if suffixes = [] then return [(start,noText)] else return suffixes.map fun suffix => (start,toText suffix) :=
  if_neg (by simp [array,Ptree.data,noText])

theorem prefixCalls_readable (readable : entry.Readable) :
    ∃ calls, prefixCalls (noText,entry.tree) = .ok calls ∧ calls.map joined = entry.read := by
  cases entry with
  | plain text some' =>
    refine ⟨[(text,noText)],if_pos some',?_⟩
    simp [joined,PrefixEntry.read,noText]
  | prefixed start blocks some' long =>
    have suffixes := flatten_blocks.mpr ⟨readable,rfl⟩
    rw [PrefixEntry.tree,prefixCalls_prefixed,suffixes,PrefixEntry.read]
    by_cases none' : readAll 0 blocks = []
    · refine ⟨[(start,noText)],?_,?_⟩
      · simp [none',Bind.bind,Except.bind,Pure.pure,Except.pure]
      · simp [none',joined,noText]
    · refine ⟨(readAll 0 blocks).map fun suffix => (start,toText suffix),?_,?_⟩
      · simp [none',Bind.bind,Except.bind,Pure.pure,Except.pure]
      · simp [none',joined,toText]

theorem prefixCalls_unreadable (unreadable : ¬ entry.Readable) : ∃ what, prefixCalls (noText,entry.tree) = .error what := by
  cases entry with
  | plain text some' => exact absurd trivial unreadable
  | prefixed start blocks some' long =>
    rw [PrefixEntry.tree,prefixCalls_prefixed]
    cases suffixes : flattenRangeList (rangeTree blocks) with
    | error what => exact ⟨what,rfl⟩
    | ok values => exact absurd (flatten_blocks.mp suffixes).1 unreadable

theorem entries_readable {entries : List (PrefixEntry reset)} (readable : ∀ entry ∈ entries, entry.Readable) :
    ∃ calls, (entries.map fun entry => (noText,entry.tree)).mapM prefixCalls = .ok calls ∧
      calls.flatten.map joined = entries.flatMap PrefixEntry.read := by
  induction entries with
  | nil => exact ⟨[],rfl,rfl⟩
  | cons entry entries ih =>
    obtain ⟨own,parsed,strings⟩ := prefixCalls_readable (readable entry mem_cons_self)
    obtain ⟨calls,rest,others⟩ := ih fun entry inside => readable entry (mem_cons_of_mem _ inside)
    refine ⟨own :: calls,?_,?_⟩
    · rw [map_cons,mapM_cons,parsed,rest]
      rfl
    · rw [flatten_cons,map_append,flatMap_cons,strings,others]

theorem entries_unreadable {entries : List (PrefixEntry reset)} (inside : entry ∈ entries) (unreadable : ¬ entry.Readable) :
    ∃ what, (entries.map fun entry => (noText,entry.tree)).mapM prefixCalls = .error what := by
  induction entries with
  | nil => cases inside
  | cons head entries ih =>
    rw [map_cons,mapM_cons]
    by_cases readable : head.Readable
    · obtain ⟨own,parsed,_⟩ := prefixCalls_readable readable
      have later : entry ∈ entries := (mem_cons.mp inside).resolve_left fun same => unreadable (same ▸ readable)
      obtain ⟨what,failed⟩ := ih later
      exact ⟨what,by rw [parsed,failed]; rfl⟩
    · obtain ⟨what,failed⟩ := prefixCalls_unreadable readable
      exact ⟨what,by rw [failed]; rfl⟩

theorem flatten_entries {entries : List (PrefixEntry reset)} : flattenPrefixList (prefixTree entries) = .ok strings ↔
      (∀ entry ∈ entries, entry.Readable) ∧ entries.flatMap PrefixEntry.read = strings := by
  have children : (prefixTree entries).children = entries.map fun entry => (noText,entry.tree) := by
    rw [prefixTree,array,map_map]
    rfl
  rw [flattenPrefixList,forEachPrefixList,children]
  by_cases readable : ∀ entry ∈ entries, entry.Readable
  · obtain ⟨calls,parsed,own⟩ := entries_readable readable
    rw [parsed,← own]
    refine ⟨fun same => ⟨readable,?_⟩,fun both => ?_⟩
    · cases same
      rfl
    · rw [← both.2]
      rfl
  · obtain ⟨entry,inside,unreadable⟩ : ∃ entry ∈ entries, ¬ entry.Readable := by simpa using readable
    obtain ⟨what,failed⟩ := entries_unreadable inside unreadable
    rw [failed]
    exact ⟨fun same => (by cases same),fun both => absurd both.1 readable⟩

end Reading

section Keeping
variable {reset : Int → Int}

theorem meant_ne {base : Int} (block : Block) : (block.meant reset base).1 ≠ [] := by
  have some' : ∀ {d x : Int} {n : Nat}, (turns reset d x (n + 1) base).1 ≠ [] := fun {d x n} =>
    ne_nil_of_mem (mem_append_left _ (pairValues_first (base + d) x))
  cases block with
  | one d => exact cons_ne_nil _ _
  | pair d x | times d x r => exact some'

theorem meant_length (blocks : List Block) (base : Int) : blocks.length ≤ (meant reset base blocks).length := by
  induction blocks generalizing base with
  | nil => exact Nat.le_refl _
  | cons block blocks ih =>
    have own := length_pos_iff.mpr (@meant_ne reset base block)
    have rest := ih (block.meant reset base).2
    rw [meant,length_append,length_cons]
    omega

theorem read_length (entry : PrefixEntry reset) : entry.read.length ≤ entry.strings.length := by
  cases entry with
  | plain text some' => exact Nat.le_refl _
  | prefixed start blocks some' long =>
    have least := @meant_length reset blocks 0
    have most := @readAll_length reset blocks 0 0
    have positive := length_pos_iff.mpr some'
    rw [PrefixEntry.read,PrefixEntry.strings,length_map]
    split
    · exact positive.trans_le least
    · rw [length_map]
      exact most

theorem suffixText_none (absent : suffixText v = []) : v < 0 := by
  by_contra present
  rw [suffixText,if_neg present] at absent
  exact decimalInt_ne absent

theorem pairValues_single (single : (pairValues v x).length = 1) : x = 0 := by
  unfold pairValues at single
  split at single
  · rw [length_replicate] at single
    omega
  · rw [length_map,length_range] at single
    omega

theorem single_form (single : meant reset 0 blocks = [v]) (none' : readAll 0 blocks = []) :
    blocks = [.pair v 0] ∨ blocks = [.times v 0 0] := by
  have count : blocks.length ≤ 1 := by
    have least := @meant_length reset blocks 0
    rwa [single] at least
  match blocks, count with
  | [], _ => cases single
  | [block], _ =>
    rw [meant,meant,append_nil] at single
    have length := congrArg List.length single
    cases block with
    | one d => cases none'
    | pair d x =>
      rw [Block.meant,turns_size] at length
      have zero := pairValues_single (show (pairValues 0 x).length = 1 by simpa using length)
      subst zero
      simp [Block.meant,turns,pairValues] at single
      simp [single]
    | times d x r =>
      rw [Block.meant,turns_size] at length
      have whole : (r + 1) * (pairValues 0 x).length = 1 := by simpa using length
      have zero := pairValues_single (Nat.eq_one_of_mul_eq_one_left whole)
      have once : r = 0 := by have := Nat.eq_one_of_mul_eq_one_right whole; omega
      subst zero once
      simp [Block.meant,turns,pairValues] at single
      simp [single]

theorem strings_append {left right : Int → Bytes} {values meant : List Int}
    (same : values.map (fun v => start ++ left v) = meant.map fun v => start ++ right v) : values.map left = meant.map right := by
  have injective : Function.Injective (start ++ ·) := fun _ _ equal => append_cancel_left equal
  refine map_injective_iff.mpr injective ?_
  simpa [Function.comp_def] using same

theorem readable_kept {entry : PrefixEntry reset} : entry.Readable ∧ entry.read = entry.strings ↔ entry.Kept := by
  cases entry with
  | plain text some' => exact ⟨fun _ => trivial,fun _ => ⟨trivial,rfl⟩⟩
  | prefixed start blocks some' long =>
    constructor
    · rintro ⟨fits,same⟩
      rw [PrefixEntry.read,PrefixEntry.strings] at same
      split at same
      · rename_i none'
        obtain ⟨v,single⟩ := length_eq_one_iff.mp (show (meant reset 0 blocks).length = 1 by
          simpa using (congrArg List.length same).symm)
        rw [single] at same
        have absent := suffixText_none (append_right_eq_self.mp (singleton_inj.mp same).symm)
        have form := single_form single none'
        refine .inr ⟨v,absent,?_,form⟩
        rcases form with rfl | rfl
        · exact (fits _ mem_cons_self).1
        · exact (fits _ mem_cons_self).1
      · have apart : ∀ v < 0, decimalInt v ≠ suffixText v := fun v negative => by
          rw [suffixText,if_pos negative]
          exact decimalInt_ne
        obtain ⟨present,small⟩ := readAll_texts apart blocks 0 fits (strings_append same)
        exact .inl ⟨fits,small,present⟩
    · rintro (⟨fits,small,present⟩ | ⟨d,absent,sized,form⟩)
      · refine ⟨fits,?_⟩
        have exact' := readAll_exact blocks 0 present small
        have least := @meant_length reset blocks 0
        have some'' : meant reset 0 blocks ≠ [] := length_pos_iff.mp ((length_pos_iff.mpr some').trans_le least)
        rw [PrefixEntry.read,exact',if_neg some'']
        refine map_congr_left fun v inside => ?_
        rw [suffixText,if_neg (by have := present v inside; omega)]
      · have zero : IntSized 32 0 := by unfold IntSized; omega
        rcases form with rfl | rfl
        · refine ⟨fun block inside => ?_,?_⟩
          · cases mem_singleton.mp inside
            exact ⟨sized,zero⟩
          · simp [PrefixEntry.read,PrefixEntry.strings,readAll,Block.read,Block.ranges,nextRanges,nextRange,absent,
              RangeList.values,meant,Block.meant,turns,pairValues,suffixText]
        · refine ⟨fun block inside => ?_,?_⟩
          · cases mem_singleton.mp inside
            exact ⟨sized,zero,zero⟩
          · have once : repeats 0 = 1 := repeats_small (by omega)
            simp [PrefixEntry.read,PrefixEntry.strings,readAll,Block.read,Block.ranges,once,nextRanges,nextRange,absent,
              RangeList.values,meant,Block.meant,turns,pairValues,suffixText]

theorem flatMap_tight {α β : Type} {left right : α → List β} {entries : List α}
    (shorter : ∀ entry ∈ entries, (left entry).length ≤ (right entry).length) :
    entries.flatMap left = entries.flatMap right ↔ ∀ entry ∈ entries, left entry = right entry := by
  induction entries with
  | nil => simp
  | cons entry entries ih =>
    obtain ⟨own,rest⟩ := forall_mem_cons.mp shorter
    have total : (entries.flatMap left).length ≤ (entries.flatMap right).length := by
      rw [length_flatMap,length_flatMap]
      exact sum_le_sum rest
    rw [flatMap_cons,flatMap_cons,forall_mem_cons,← ih rest]
    refine ⟨append_tight own total,fun both => ?_⟩
    rw [both.1,both.2]

end Keeping

-- The strings come back exactly if no entry has an absent suffix next to others, or in the form of one number.
theorem prefix_list_kept (reset : Int → Int) (entries : List (PrefixEntry reset)) :
    flattenPrefixList (prefixTree entries) = .ok (entries.flatMap PrefixEntry.strings) ↔ ∀ entry ∈ entries, entry.Kept := by
  rw [flatten_entries]
  constructor
  · rintro ⟨readable,same⟩ entry inside
    have own := (flatMap_tight fun entry _ => read_length entry).mp same entry inside
    exact readable_kept.mp ⟨readable entry inside,own⟩
  · intro kept'
    refine ⟨fun entry inside => (readable_kept.mpr (kept' entry inside)).1,?_⟩
    exact (flatMap_tight fun entry _ => read_length entry).mpr fun entry inside => (readable_kept.mpr (kept' entry inside)).2

def aOut : CStr := ⟨ascii "/a.out",by decide⟩

def sixTimes : PrefixEntry fun _ => 0 := .prefixed aOut [.pair (-1) (-5)] (by simp) (by
  simp [meant,Block.meant,turns,pairValues,IntSized])

theorem six_strings_become_one : sixTimes.strings = List.replicate 6 (ascii "/a.out") ∧
    flattenPrefixList (prefixTree [sixTimes]) = .ok [ascii "/a.out"] := by
  constructor <;> decide

end CommonTools.Applications.FluxHistory
