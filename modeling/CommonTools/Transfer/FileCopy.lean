import Mathlib.Tactic.Common
import CommonTools.FeDaemon.Wire

namespace CommonTools.Transfer.Archives
open FeDaemon List

-- An answer of archive_write_data: how many bytes it is ready to take, or its error.
inductive Answer where
  | takes (count : Nat)
  | fails (what : Bytes)

-- The calls so far, what is left of the size in the entry's header, and the data behind that header.
structure Entry where
  calls : Nat
  declared : Nat
  written : Bytes

def stored (memory : Nat → UInt8) (block : Bytes) : Nat → UInt8 := fun i => block.getD i (memory i)

def window (memory : Nat → UInt8) (start count : Nat) : Bytes := (List.range count).map fun i => memory (start + i)

-- The inner loop. Each call offers readLen bytes from writeLen on; archive_write_data takes no more
-- than was declared. Without fuel the loop has not come to its end.
def writeLoop (trouble : Bytes) (answers : Nat → Answer) (memory : Nat → UInt8) (readLen : Nat) :
    Nat → Nat → Entry → Option (Except Bytes Entry)
  | 0,_,_ => none
  | fuel + 1,writeLen,entry =>
    if writeLen < readLen then
      match answers entry.calls with
      | .fails what => some (.error (trouble ++ what))
      | .takes count =>
        let bytesWritten := min count (min readLen entry.declared)
        writeLoop trouble answers memory readLen fuel (writeLen + bytesWritten)
          ⟨entry.calls + 1,entry.declared - bytesWritten,entry.written ++ window memory writeLen bytesWritten⟩
    else some (.ok entry)

def blockSize : Nat := 65536

-- A regular file, what the reads of it return, the buffer before, and the answers of libarchive, with
-- the texts of its errors.
structure FileCopy where
  filePath : Bytes
  archivePath : Bytes
  opened : Bool
  blocks : List Bytes
  sized : ∀ block ∈ blocks, block ≠ [] ∧ block.length ≤ blockSize
  memory : Nat → UInt8
  answers : Nat → Answer

def FileCopy.content (file : FileCopy) : Bytes := file.blocks.flatten

def FileCopy.trouble (file : FileCopy) : Bytes :=
  file.filePath ++ ascii " failed archive_write_data to " ++ file.archivePath ++ ascii ": "

-- The outer loop, until a read returns 0 or fails.
def FileCopy.copyLoop (file : FileCopy) (fuel : Nat) (readFails : Bool) : (Nat → UInt8) → List Bytes → Entry → Option (Except Bytes Entry)
  | _,[],entry => some (if readFails then .error (file.filePath ++ ascii " failed read call") else .ok entry)
  | memory,block :: blocks,entry =>
    match writeLoop file.trouble file.answers (stored memory block) block.length fuel 0 entry with
    | some (.ok entry) => file.copyLoop fuel readFails (stored memory block) blocks entry
    | other => other

-- The entry behind its header, which has the size from stat. A file that cannot be opened is passed over.
def addFile (fuel : Nat) (readFails : Bool) (file : FileCopy) : Option (Except Bytes Entry) :=
  let entry : Entry := ⟨0,file.content.length,[]⟩
  if file.opened then file.copyLoop fuel readFails file.memory file.blocks entry else some (.ok entry)

def FileCopy.Copied (file : FileCopy) : Prop :=
  ∃ fuel outcome, addFile fuel false file = some outcome ∧ ∀ entry, outcome = .ok entry → entry.written = file.content

-- These counts take what is left of a block: none of them more than that, unless it is the first
-- of the block or nothing comes after the block.
def Fills (whole later : Nat) : Nat → List Nat → Prop
  | left,[] => left = 0
  | left,count :: counts => 0 < left ∧ (count ≤ left ∨ left = whole ∨ later = 0) ∧ Fills whole later (left - count) counts

def InOrder : List Nat → List (List Nat) → Prop
  | [],[] => True
  | size :: sizes,counts :: groups => Fills size sizes.sum size counts ∧ InOrder sizes groups
  | _,_ => False

def Answered (answers : Nat → Answer) : Nat → List Nat → Prop
  | _,[] => True
  | call,count :: counts => answers call = .takes count ∧ Answered answers (call + 1) counts

def FileCopy.TakenInOrder (file : FileCopy) : Prop :=
  ∃ groups, InOrder (file.blocks.map List.length) groups ∧ Answered file.answers 0 groups.flatten

def FileCopy.SomeFails (file : FileCopy) : Prop := ∃ call what, file.answers call = .fails what

theorem answered_append :
    Answered answers call (first ++ second) ↔ Answered answers call first ∧ Answered answers (call + first.length) second := by
  induction first generalizing call with
  | nil => simp [Answered]
  | cons count first ih => rw [cons_append,Answered,Answered,ih,length_cons,and_assoc,Nat.add_assoc,Nat.add_comm 1]

section Blocks
variable {trouble : Bytes} {answers : Nat → Answer} {memory : Nat → UInt8} {readLen fuel writeLen : Nat} {entry last : Entry}

theorem window_append : window memory start first ++ window memory (start + first) second = window memory start (first + second) := by
  rw [window,window,window,range_add,map_append,map_map]
  congr 1
  exact map_congr_left fun i _ => by simp [Nat.add_assoc]

theorem window_block : window (stored memory block) 0 block.length = block := by
  refine ext_getElem (by simp [window]) fun i inside bound => ?_
  simp [window,stored,bound]

theorem writeLoop_ended (ended : writeLoop trouble answers memory readLen fuel writeLen entry = some (.ok last)) :
    ∃ more, readLen ≤ writeLen + more ∧ last.declared + more = entry.declared ∧
      last.written = entry.written ++ window memory writeLen more := by
  induction fuel generalizing writeLen entry with
  | zero => cases ended
  | succ fuel ih =>
    rw [writeLoop] at ended
    split at ended
    · split at ended
      · cases ended
      · rename_i count given
        obtain ⟨more,passed,declared,written⟩ := ih ended
        refine ⟨min count (min readLen entry.declared) + more,by omega,?_,?_⟩
        · dsimp only at declared
          omega
        · rw [written,append_assoc,window_append]
    · cases ended
      exact ⟨0,by omega,rfl,by simp [window]⟩

theorem writeLoop_fails {call : Nat} {what : Bytes} (failing : answers call = .fails what) (before : entry.calls ≤ call)
    (enough : call - entry.calls + 1 < fuel) : ∃ outcome, writeLoop trouble answers memory readLen fuel writeLen entry = some outcome ∧
      ∀ last, outcome = .ok last → last.calls ≤ call := by
  induction fuel generalizing writeLen entry with
  | zero => omega
  | succ fuel ih =>
    rw [writeLoop]
    split
    · split
      · exact ⟨_,rfl,nofun⟩
      · rename_i count given
        have other : entry.calls ≠ call := by
          rintro rfl
          rw [failing] at given
          cases given
        exact ih (by dsimp only; omega) (by dsimp only; omega)
    · refine ⟨_,rfl,fun last same => ?_⟩
      cases same
      exact before

theorem writeLoop_error (ended : writeLoop trouble answers memory readLen fuel writeLen entry = some (.error text)) :
    ∃ call what, answers call = .fails what := by
  induction fuel generalizing writeLen entry with
  | zero => cases ended
  | succ fuel ih =>
    rw [writeLoop] at ended
    split at ended
    · split at ended
      · rename_i what given
        exact ⟨entry.calls,what,given⟩
      · exact ih ended
    · cases ended

theorem writeLoop_fills {later left : Nat} {counts : List Nat} (fills : Fills readLen later left counts)
    (place : writeLen + left = readLen) (declared : entry.declared = left + later)
    (answered : Answered answers entry.calls counts) (enough : counts.length < fuel) :
    ∃ last, writeLoop trouble answers memory readLen fuel writeLen entry = some (.ok last) ∧
      last.declared = later ∧ last.calls = entry.calls + counts.length := by
  induction counts generalizing fuel writeLen entry left with
  | nil =>
    obtain ⟨rest,rfl⟩ : ∃ rest, fuel = rest + 1 := ⟨fuel - 1,by simp at enough; omega⟩
    have done : left = 0 := fills
    rw [writeLoop,if_neg (by omega)]
    exact ⟨entry,rfl,by omega,rfl⟩
  | cons count counts ih =>
    obtain ⟨rest,rfl⟩ : ∃ rest, fuel = rest + 1 := ⟨fuel - 1,by simp at enough; omega⟩
    obtain ⟨positive,fits,fillsRest⟩ := fills
    obtain ⟨given,answeredRest⟩ := answered
    have taken : min count (min readLen entry.declared) = min count left := by omega
    rw [writeLoop,if_pos (by omega),given]
    dsimp only
    rw [taken]
    obtain ⟨last,ended,rest',calls⟩ := @ih rest (writeLen + min count left)
      ⟨entry.calls + 1,entry.declared - min count left,entry.written ++ window memory writeLen (min count left)⟩
      (left - count) fillsRest (by omega) (by dsimp only; omega) answeredRest (by simp at enough; omega)
    refine ⟨last,ended,rest',?_⟩
    rw [calls,length_cons]
    dsimp only
    omega

theorem fills_writeLoop (ended : writeLoop trouble answers memory readLen fuel writeLen entry = some (.ok last))
    (place : writeLen + left = readLen) (declared : entry.declared = left + later) (exact' : last.declared = later) :
    ∃ counts, Fills readLen later left counts ∧ Answered answers entry.calls counts ∧ last.calls = entry.calls + counts.length := by
  induction fuel generalizing writeLen entry left with
  | zero => cases ended
  | succ fuel ih =>
    rw [writeLoop] at ended
    split at ended
    · split at ended
      · cases ended
      · rename_i count given
        obtain ⟨more,passed,rest,_⟩ := writeLoop_ended ended
        dsimp only at rest
        obtain ⟨counts,fills,answered,calls⟩ := @ih (writeLen + min count (min readLen entry.declared))
          ⟨entry.calls + 1,entry.declared - min count (min readLen entry.declared),
            entry.written ++ window memory writeLen (min count (min readLen entry.declared))⟩
          (left - count) ended (by omega) (by dsimp only; omega)
        refine ⟨count :: counts,⟨by omega,by omega,fills⟩,⟨given,answered⟩,?_⟩
        rw [calls,length_cons]
        dsimp only
        omega
    · cases ended
      exact ⟨[],show left = 0 by omega,trivial,rfl⟩

end Blocks

section Files
variable {file : FileCopy} {fuel : Nat} {memory : Nat → UInt8} {blocks : List Bytes} {entry last : Entry}

def sizes (blocks : List Bytes) : List Nat := blocks.map List.length

theorem copyLoop_cons : file.copyLoop fuel false memory (block :: blocks) entry =
    match writeLoop file.trouble file.answers (stored memory block) block.length fuel 0 entry with
    | some (.ok entry) => file.copyLoop fuel false (stored memory block) blocks entry
    | other => other := rfl

theorem copyLoop_next (ended : file.copyLoop fuel false memory (block :: blocks) entry = some (.ok last)) :
    ∃ middle, writeLoop file.trouble file.answers (stored memory block) block.length fuel 0 entry = some (.ok middle) ∧
      file.copyLoop fuel false (stored memory block) blocks middle = some (.ok last) := by
  rw [copyLoop_cons] at ended
  split at ended
  · rename_i middle written
    exact ⟨middle,written,ended⟩
  · rename_i other
    exact absurd ended (other last)

theorem copyLoop_room (ended : file.copyLoop fuel false memory blocks entry = some (.ok last)) : (sizes blocks).sum ≤ entry.declared := by
  induction blocks generalizing memory entry with
  | nil => simp [sizes]
  | cons block blocks ih =>
    obtain ⟨middle,written,rest⟩ := copyLoop_next ended
    obtain ⟨more,passed,declared,_⟩ := writeLoop_ended written
    have room := ih rest
    simp only [sizes,map_cons,sum_cons] at room ⊢
    omega

theorem copyLoop_exact (ended : file.copyLoop fuel false memory blocks entry = some (.ok last))
    (declared : entry.declared = (sizes blocks).sum) : last.written = entry.written ++ blocks.flatten ∧
      ∃ groups, InOrder (sizes blocks) groups ∧ Answered file.answers entry.calls groups.flatten := by
  induction blocks generalizing memory entry with
  | nil =>
    cases ended
    exact ⟨by simp,[],trivial,trivial⟩
  | cons block blocks ih =>
    obtain ⟨middle,written,rest⟩ := copyLoop_next ended
    obtain ⟨more,passed,left,data⟩ := writeLoop_ended written
    have room := copyLoop_room rest
    simp only [sizes,map_cons,sum_cons] at declared room
    have size : more = block.length := by omega
    have later : middle.declared = (sizes blocks).sum := by simp only [sizes]; omega
    obtain ⟨whole,groups,ordered,answered⟩ := ih rest later
    obtain ⟨counts,fills,first,calls⟩ := fills_writeLoop written (Nat.zero_add _) declared later
    refine ⟨?_,counts :: groups,⟨fills,ordered⟩,?_⟩
    · rw [whole,data,size,window_block,flatten_cons,append_assoc]
    · rw [flatten_cons,answered_append,← calls]
      exact ⟨first,answered⟩

theorem copyLoop_fails {call : Nat} {what : Bytes} (failing : file.answers call = .fails what) (before : entry.calls ≤ call) :
    ∃ outcome, file.copyLoop (call + 2) false memory blocks entry = some outcome := by
  induction blocks generalizing memory entry with
  | nil => exact ⟨_,rfl⟩
  | cons block blocks ih =>
    obtain ⟨outcome,ended,within⟩ := @writeLoop_fails file.trouble file.answers (stored memory block) block.length (call + 2) 0 entry
      call what failing before (by omega)
    rw [copyLoop_cons,ended]
    cases outcome with
    | error text => exact ⟨_,rfl⟩
    | ok middle => exact ih (within middle rfl)

theorem copyLoop_error (ended : file.copyLoop fuel false memory blocks entry = some (.error text)) : file.SomeFails := by
  induction blocks generalizing memory entry with
  | nil => cases ended
  | cons block blocks ih =>
    rw [copyLoop_cons] at ended
    split at ended
    · exact ih ended
    · exact writeLoop_error ended

theorem copyLoop_ordered {groups : List (List Nat)} (ordered : InOrder (sizes blocks) groups)
    (answered : Answered file.answers entry.calls groups.flatten) (declared : entry.declared = (sizes blocks).sum)
    (enough : groups.flatten.length < fuel) : ∃ last, file.copyLoop fuel false memory blocks entry = some (.ok last) := by
  induction blocks generalizing memory entry groups with
  | nil => exact ⟨entry,rfl⟩
  | cons block blocks ih =>
    cases groups with
    | nil => exact ordered.elim
    | cons counts groups =>
      obtain ⟨fills,orderedRest⟩ := ordered
      rw [flatten_cons] at answered enough
      rw [length_append] at enough
      obtain ⟨first,answeredRest⟩ := answered_append.mp answered
      obtain ⟨middle,written,later,calls⟩ := @writeLoop_fills file.trouble file.answers (stored memory block) block.length fuel 0 entry
        (sizes blocks).sum block.length counts fills (Nat.zero_add _) declared first (by omega)
      rw [copyLoop_cons,written]
      exact ih orderedRest (calls ▸ answeredRest) later (by omega)

end Files

section Ends
variable (file : FileCopy)

theorem content_length : file.content.length = (sizes file.blocks).sum := by
  rw [FileCopy.content,length_flatten]
  rfl

theorem addFile_opened (opened : file.opened = true) :
    addFile fuel false file = file.copyLoop fuel false file.memory file.blocks ⟨0,file.content.length,[]⟩ := by
  rw [addFile,if_pos opened]

theorem addFile_passed (missing : file.opened = false) (fuel : Nat) : addFile fuel false file = some (.ok ⟨0,file.content.length,[]⟩) := by
  rw [addFile,missing]
  rfl

theorem copied_ends (opened : file.opened = true) : file.Copied ↔ ∃ fuel outcome, addFile fuel false file = some outcome := by
  constructor
  · rintro ⟨fuel,outcome,ended,_⟩
    exact ⟨fuel,outcome,ended⟩
  · rintro ⟨fuel,outcome,ended⟩
    refine ⟨fuel,outcome,ended,?_⟩
    rintro entry rfl
    rw [addFile_opened file opened] at ended
    exact (copyLoop_exact ended (content_length file)).1

theorem ends_ordered (opened : file.opened = true)
    (ended : addFile fuel false file = some outcome) : file.SomeFails ∨ file.TakenInOrder := by
  rw [addFile_opened file opened] at ended
  cases outcome with
  | error text => exact .inl (copyLoop_error ended)
  | ok entry => exact .inr (copyLoop_exact ended (content_length file)).2

theorem ordered_ends (opened : file.opened = true) (taken : file.TakenInOrder) :
    ∃ fuel outcome, addFile fuel false file = some outcome := by
  obtain ⟨groups,ordered,answered⟩ := taken
  obtain ⟨entry,ended⟩ := @copyLoop_ordered file (groups.flatten.length + 1) file.memory file.blocks ⟨0,file.content.length,[]⟩ groups
    ordered answered (content_length file) (Nat.lt_succ_self _)
  exact ⟨_,_,(addFile_opened file opened).trans ended⟩

theorem fails_ends (opened : file.opened = true) (failing : file.SomeFails) : ∃ fuel outcome, addFile fuel false file = some outcome := by
  obtain ⟨call,what,failing⟩ := failing
  obtain ⟨outcome,ended⟩ := @copyLoop_fails file file.memory file.blocks ⟨0,file.content.length,[]⟩ call what failing (Nat.zero_le _)
  exact ⟨_,_,(addFile_opened file opened).trans ended⟩

theorem empty_ordered (empty : file.content = []) : file.TakenInOrder := by
  have none' : file.blocks = [] := eq_nil_iff_forall_not_mem.mpr fun block inside =>
    (file.sized block inside).1 (flatten_eq_nil_iff.mp empty block inside)
  refine ⟨[],?_,trivial⟩
  rw [none']
  trivial

end Ends

-- A file is archived as it is, or the copy throws, exactly if the file is empty, or it can be opened and
-- either an answer is an error or the answers take the blocks in order.
theorem file_copied_exact (file : FileCopy) :
    file.Copied ↔ file.content = [] ∨ file.opened = true ∧ (file.SomeFails ∨ file.TakenInOrder) := by
  cases open' : file.opened with
  | false =>
    have passed := addFile_passed file open'
    constructor
    · rintro ⟨fuel,outcome,ended,right⟩
      rw [passed] at ended
      cases ended
      exact .inl (right _ rfl).symm
    · rintro (empty | ⟨wrong,_⟩)
      · refine ⟨0,_,passed 0,?_⟩
        rintro entry ⟨⟩
        exact empty.symm
      · cases wrong
  | true =>
    rw [copied_ends file open']
    constructor
    · rintro ⟨fuel,outcome,ended⟩
      exact .inr ⟨rfl,ends_ordered file open' ended⟩
    · rintro (empty | ⟨_,failing | taken⟩)
      · exact ordered_ends file open' (empty_ordered file empty)
      · exact fails_ends file open' failing
      · exact ordered_ends file open' taken

section Fuel
variable {trouble : Bytes} {answers : Nat → Answer} {readLen fuel more : Nat} {file : FileCopy}

theorem writeLoop_more (within : fuel ≤ more) (ended : writeLoop trouble answers memory readLen fuel writeLen entry = some outcome) :
    writeLoop trouble answers memory readLen more writeLen entry = some outcome := by
  induction fuel generalizing more writeLen entry with
  | zero => cases ended
  | succ fuel ih =>
    obtain ⟨rest,rfl⟩ : ∃ rest, more = rest + 1 := ⟨more - 1,by omega⟩
    rw [writeLoop] at ended ⊢
    split at ended
    · rename_i inside
      rw [if_pos inside]
      split at ended
      · exact ended
      · exact ih (by omega) ended
    · rename_i passed
      rw [if_neg passed]
      exact ended

theorem copyLoop_more (within : fuel ≤ more)
    (ended : file.copyLoop fuel false memory blocks entry = some outcome) : file.copyLoop more false memory blocks entry = some outcome := by
  induction blocks generalizing memory entry with
  | nil => exact ended
  | cons block blocks ih =>
    rw [copyLoop_cons] at ended ⊢
    cases first : writeLoop file.trouble file.answers (stored memory block) block.length fuel 0 entry with
    | none =>
      rw [first] at ended
      cases ended
    | some result =>
      rw [first] at ended
      rw [writeLoop_more within first]
      cases result with
      | error text => exact ended
      | ok middle => exact ih ended

theorem addFile_more (within : fuel ≤ more) (ended : addFile fuel false file = some outcome) : addFile more false file = some outcome := by
  cases open' : file.opened with
  | false =>
    rw [addFile_passed file open'] at ended ⊢
    exact ended
  | true =>
    rw [addFile_opened file open'] at ended ⊢
    exact copyLoop_more within ended

end Fuel

def shortWrite : FileCopy where
  filePath := ascii "f"
  archivePath := ascii "a"
  opened := true
  blocks := [[1,2,3],[4,5,6]]
  sized := by decide
  memory _ := 0
  answers call := if call = 0 then .takes 2 else .takes 3

def unreadable : FileCopy := {shortWrite with opened := false}

theorem shortWrite_never (fuel : Nat) (outcome : Except Bytes Entry) : addFile fuel false shortWrite ≠ some outcome := by
  intro ended
  rcases ends_ordered shortWrite rfl ended with ⟨call,what,failing⟩ | ⟨groups,ordered,answered⟩
  · have takes : shortWrite.answers call = if call = 0 then .takes 2 else .takes 3 := rfl
    rw [takes] at failing
    split at failing <;> cases failing
  · match groups,ordered with
    | [counts,more],⟨fills,_⟩ =>
      match counts,fills with
      | [],wrong => cases wrong
      | one :: rest,⟨_,_,fillsRest⟩ =>
        cases answered.1
        match rest,fillsRest with
        | [],wrong => cases wrong
        | two :: rest,⟨_,fits,_⟩ =>
          cases answered.2.1
          exact absurd fits (by decide)

-- The copy of the one never ends, and the other is archived without its data.
theorem file_copy_incomplete : (∀ fuel outcome, addFile fuel false shortWrite ≠ some outcome) ∧ ¬ shortWrite.Copied ∧
    addFile 0 false unreadable = some (.ok ⟨0,6,[]⟩) ∧ ¬ unreadable.Copied := by
  refine ⟨shortWrite_never,?_,rfl,?_⟩
  · rintro ⟨fuel,outcome,ended,_⟩
    exact shortWrite_never fuel outcome ended
  · rintro ⟨fuel,outcome,ended,right⟩
    rw [addFile_passed unreadable rfl] at ended
    cases ended
    exact absurd (right _ rfl) (by decide)

end CommonTools.Transfer.Archives
