import CommonTools.Library.Polling
import CommonTools.FeDaemon.Ranks
import CommonTools.FeDaemon.Registry

namespace CommonTools.FeDaemon
open Numerals Polling Programs List

namespace Inferior

abbrev Address := BitVec 64

-- The bytes that reads deliver: whether one has failed is never looked at.
abbrev Memory := Address → UInt8

inductive Stop where
  | terminated
  | stopped (memory : Memory)

-- A launcher whose MPIR symbols have been found, and where it stops. What was there
-- at the time of an attach comes first.
structure Launcher where
  getAddress : String → Address
  stops : Nat → Stop

inductive Mode where
  | launch
  | attach

def readMemory (memory : Memory) (address : Address) (size : Nat) : Bytes :=
  (List.range size).map fun k => memory (address + BitVec.ofNat 64 k)

def word (bits : Nat) (memory : Memory) (address : Address) : BitVec bits :=
  BitVec.ofNat bits (unlittle (readMemory memory address (bits / 8)))

def readStringAt (memory : Memory) : Nat → Address → Option CStr
  | 0,_ => none
  | fuel + 1,address =>
    if zero : memory address = 0 then some (cstr [])
    else (readStringAt memory fuel (address + 1)).map fun text =>
      ⟨memory address :: text.1,fun inside => (mem_cons.mp inside).elim (Ne.symm zero) text.2⟩

-- A string in the memory, with its end.
def Text (memory : Memory) (address : Address) (text : CStr) : Prop := readMemory memory address (text.1.length + 1) = text.1 ++ [0]

theorem readMemory_succ : readMemory memory address (size + 1) = memory address :: readMemory memory (address + 1) size := by
  have later : ∀ k, memory (address + BitVec.ofNat 64 (k + 1)) = memory (address + 1 + BitVec.ofNat 64 k) := by
    intro k
    rw [BitVec.ofNat_add,BitVec.add_comm (BitVec.ofNat 64 k),← BitVec.add_assoc]
    rfl
  simp [readMemory,range_succ_eq_map,Function.comp_def,later]

theorem readStringAt_iff : readStringAt memory fuel address = some text ↔ Text memory address text ∧ text.1.length < fuel := by
  induction fuel generalizing address text with
  | zero => simp [readStringAt]
  | succ fuel ih =>
    obtain ⟨bytes,free⟩ := text
    unfold readStringAt Text
    by_cases zero : memory address = 0
    · cases bytes with
      | nil => simp [zero,readMemory,cstr]
      | cons b bytes =>
        have apart : b ≠ 0 := fun same => free (same ▸ mem_cons_self)
        simp [zero,readMemory_succ,Ne.symm apart,cstr]
    · cases bytes with
      | nil => simp [zero,readMemory]
      | cons b bytes =>
        have rest := @ih (address + 1) ⟨bytes,fun inside => free (mem_cons_of_mem _ inside)⟩
        rw [dif_neg zero,Option.map_eq_some_iff,length_cons,readMemory_succ,cons_append,cons.injEq,Nat.add_lt_add_iff_right]
        constructor
        · intro ⟨text,read,same⟩
          cases Subtype.mk.inj same
          exact ⟨⟨rfl,(rest.mp read).1⟩,(rest.mp read).2⟩
        · intro ⟨⟨first,later⟩,short⟩
          exact ⟨_,rest.mpr ⟨later,short⟩,Subtype.ext (congrArg (· :: bytes) first)⟩

namespace Launcher
variable (launcher : Launcher) (mode : Mode) (memory : Memory)

def readVariable (symName : String) : Int := (word 32 memory (launcher.getAddress symName)).toInt

-- MPIR_ProcDescElem: two pointers and a pid, 24 bytes with the gap behind them.
def elemAt (i : Nat) : Address := word 64 memory (launcher.getAddress "MPIR_proctable") + BitVec.ofNat 64 (24 * i)

def readElems (fuel : Nat) : Nat → Nat → Option (List ProctableElem)
  | 0,_ => some []
  | count + 1,i => do
    let hostname ← readStringAt memory fuel (word 64 memory (launcher.elemAt memory i))
    let executable ← readStringAt memory fuel (word 64 memory (launcher.elemAt memory i + 8))
    let rest ← readElems fuel count (i + 1)
    return ⟨word 32 memory (launcher.elemAt memory i + 16),hostname,executable⟩ :: rest

def getProctable (fuel : Nat) : Option (Except Bytes (List ProctableElem)) :=
  if launcher.readVariable memory "MPIR_proctable_size" = 0 then some (.error (ascii "launcher MPIR_proctable_size is 0"))
  else (launcher.readElems memory fuel (launcher.readVariable memory "MPIR_proctable_size").toNat 0).map .ok

def Ready : Mode → Prop
  | .launch => launcher.readVariable memory "MPIR_debug_state" = 1 ∧ 0 < launcher.readVariable memory "MPIR_proctable_size"
  | .attach => launcher.readVariable memory "MPIR_proctable_size" ≠ 0

instance : Decidable (launcher.Ready memory mode) :=
  match mode with
  | .launch => inferInstanceAs (Decidable (_ ∧ _))
  | .attach => inferInstanceAs (Decidable (_ ≠ _))

def tooEarly : Mode → Bytes
  | .launch => ascii "MPIR launch target terminated before MPIR_Breakpoint"
  | .attach => ascii "MPIR attach target terminated before proctable filled"

def settle : Stop → Option (Except Bytes Memory)
  | .terminated => some (.error (tooEarly mode))
  | .stopped memory => if launcher.Ready memory mode then some (.ok memory) else none

-- runToMPIRBreakpoint, or the constructor that attaches, and then getProctable.
def obtained (fuel : Nat) : Option (Except Bytes (List ProctableElem)) := do
  match ← poll (launcher.settle mode) launcher.stops fuel with
  | .error reason => return .error reason
  | .ok memory => launcher.getProctable memory fuel

structure Describes (i : Nat) (elem : ProctableElem) : Prop where
  pid : word 32 memory (launcher.elemAt memory i + 16) = elem.pid
  hostname : Text memory (word 64 memory (launcher.elemAt memory i)) elem.hostname
  executable : Text memory (word 64 memory (launcher.elemAt memory i + 8)) elem.executable

structure Lays (table : List ProctableElem) : Prop where
  size : table.length = (launcher.readVariable memory "MPIR_proctable_size").toNat
  elems : ∀ (i : Nat) elem, table[i]? = some elem → launcher.Describes memory i elem

-- The first stop with a table.
def Offers : Prop :=
  ∃ k, launcher.stops k = .stopped memory ∧ launcher.Ready memory mode ∧
    ∀ j < k, ∃ earlier, launcher.stops j = .stopped earlier ∧ ¬ launcher.Ready earlier mode

variable {launcher mode memory}

theorem readElems_describes (read : launcher.readElems memory fuel size i = some table) :
    table.length = size ∧ ∀ (k : Nat) elem, table[k]? = some elem → launcher.Describes memory (i + k) elem := by
  induction size generalizing i table with
  | zero => cases read; simp
  | succ size ih =>
    obtain ⟨hostname,host,more⟩ := Option.bind_eq_some_iff.mp read
    obtain ⟨executable,run,more⟩ := Option.bind_eq_some_iff.mp more
    obtain ⟨rest,others,same⟩ := Option.bind_eq_some_iff.mp more
    cases same
    refine ⟨by rw [length_cons,(ih others).1],fun k elem there => ?_⟩
    cases k with
    | zero =>
      cases there
      exact ⟨rfl,(readStringAt_iff.mp host).1,(readStringAt_iff.mp run).1⟩
    | succ k =>
      have described := (ih others).2 k elem there
      rwa [Nat.add_right_comm] at described

theorem describes_readElems (laid : ∀ (k : Nat) elem, table[k]? = some elem → launcher.Describes memory (i + k) elem) :
    ∃ enough, ∀ fuel, enough ≤ fuel → launcher.readElems memory fuel table.length i = some table := by
  induction table generalizing i with
  | nil => exact ⟨0,fun _ _ => rfl⟩
  | cons elem table ih =>
    obtain ⟨enough,later⟩ := ih (i := i + 1) fun k other there => by
      rw [Nat.add_right_comm]
      exact laid (k + 1) other there
    have first := laid 0 elem rfl
    rw [Nat.add_zero] at first
    refine ⟨enough + elem.hostname.1.length + elem.executable.1.length + 1,fun fuel large => ?_⟩
    have host := readStringAt_iff.mpr ⟨first.hostname,show _ < fuel by omega⟩
    have run := readStringAt_iff.mpr ⟨first.executable,show _ < fuel by omega⟩
    simp only [length_cons,readElems,host,run,later fuel (by omega),first.pid,Option.bind_eq_bind,Option.bind_some]
    rfl

theorem ready_size (ready : launcher.Ready memory mode) : launcher.readVariable memory "MPIR_proctable_size" ≠ 0 := by
  cases mode with
  | launch => exact Int.ne_of_gt ready.2
  | attach => exact ready

theorem settle_ok : launcher.settle mode stop = some (.ok memory) ↔ stop = .stopped memory ∧ launcher.Ready memory mode := by
  cases stop with
  | terminated => simp [settle]
  | stopped other =>
    simp only [settle,Option.ite_none_right_eq_some,Option.some.injEq,Except.ok.injEq,Stop.stopped.injEq]
    constructor
    · intro ⟨ready,same⟩; exact ⟨same,same ▸ ready⟩
    · intro ⟨same,ready⟩; exact ⟨same ▸ ready,same⟩

theorem settle_none : launcher.settle mode stop = none ↔ ∃ earlier, stop = .stopped earlier ∧ ¬ launcher.Ready earlier mode := by
  cases stop with
  | terminated => simp [settle]
  | stopped other => simp [settle]

theorem obtained_lays (done : launcher.obtained mode fuel = some (.ok table)) :
    ∃ memory, launcher.Offers mode memory ∧ launcher.Lays memory table := by
  obtain ⟨stopped,ran,read⟩ := Option.bind_eq_some_iff.mp done
  cases stopped with
  | error reason => cases read
  | ok memory =>
    obtain ⟨k,settled,asking⟩ := poll_answer ran
    obtain ⟨here,ready⟩ := settle_ok.mp settled
    simp only [getProctable,if_neg (ready_size ready)] at read
    obtain ⟨_,elems,same⟩ := Option.map_eq_some_iff.mp read
    cases same
    obtain ⟨size,described⟩ := readElems_describes elems
    refine ⟨memory,⟨k,here,ready,fun j less => settle_none.mp (asking j less)⟩,size,fun i elem there => ?_⟩
    have found := described i elem there
    rwa [Nat.zero_add] at found

-- What is obtained is the table in the launcher's memory at the first stop that has one.
theorem obtained_exact (launcher : Launcher) (mode : Mode) (table : List ProctableElem) :
    (∃ enough, ∀ fuel, enough ≤ fuel → launcher.obtained mode fuel = some (.ok table)) ↔
      ∃ memory, launcher.Offers mode memory ∧ launcher.Lays memory table := by
  constructor
  · intro ⟨enough,done⟩
    exact obtained_lays (done enough (Nat.le_refl _))
  · intro ⟨memory,⟨k,here,ready,early⟩,lays⟩
    obtain ⟨enough,read⟩ := describes_readElems (i := 0) fun k elem there => by
      rw [Nat.zero_add]
      exact lays.elems k elem there
    refine ⟨enough + (k + 1),fun fuel large => ?_⟩
    have settled := poll_settled (fun j less => settle_none.mpr (early j less)) (settle_ok.mpr ⟨here,ready⟩) (fuel - (k + 1))
    rw [Nat.add_sub_cancel' (by omega)] at settled
    refine Option.bind_eq_some_iff.mpr ⟨_,settled,?_⟩
    simp only [getProctable,if_neg (ready_size ready),← lays.size,read fuel (by omega)]
    rfl

theorem obtained_reported (pad : Padding) (done : launcher.obtained mode fuel = some (.ok table)) (named : mpirId ≠ 0)
    (launcherPid : Pid) (jobId stepId : BitVec 32) : RoundTrips pad ⟨mpirId,launcherPid,jobId,stepId,table⟩ := by
  obtain ⟨memory,_,lays⟩ := obtained_lays done
  apply roundTrips_counted pad named
  have small := BitVec.toInt_lt (x := word 32 memory (launcher.getAddress "MPIR_proctable_size"))
  have size := lays.size
  unfold readVariable at size
  change table.length < 2 ^ 31
  omega

end Launcher

-- The table is there at the second stop: one process, its names behind it.
def spawning : Launcher where
  getAddress symName := if symName = "MPIR_proctable" then 8 else if symName = "MPIR_proctable_size" then 4 else 0
  stops k := .stopped fun address => if k = 0 then 0 else
    (little 4 1 ++ little 4 1 ++ little 8 16 ++ little 8 40 ++ little 8 42 ++ little 8 7 ++ [110,0,97,0]).getD address.toNat 0

theorem obtained_reported_spawning : spawning.obtained .launch 2 = some (.ok [⟨7,⟨[110],by decide⟩,⟨[97],by decide⟩⟩]) ∧
    RoundTrips zeroes ⟨1,5,0,0,[⟨7,⟨[110],by decide⟩,⟨[97],by decide⟩⟩]⟩ := by
  have done : spawning.obtained .launch 2 = some (.ok [⟨7,⟨[110],by decide⟩,⟨[97],by decide⟩⟩]) := by decide
  exact ⟨done,Launcher.obtained_reported zeroes done (by decide) 5 0 0⟩

end Inferior

end CommonTools.FeDaemon
