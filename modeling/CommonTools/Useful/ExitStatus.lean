import CommonTools.Library.Polling

namespace CommonTools.Useful
open Polling

inductive Errno where
  | EINTR
  | ECHILD
  | other (number : Nat)
  deriving DecidableEq

inductive Wait where
  | status (status : Nat)
  | failed (errno : Errno)
  deriving DecidableEq

-- WEXITSTATUS: the second byte, however the child ended.
def exitStatus (status : Nat) : Nat := status / 256 % 256

def waitError (strerror : Errno → String) (child : Nat) (errno : Errno) : String :=
  "waitpid() on " ++ toString child ++ " failed: " ++ strerror errno

def waited (strerror : Errno → String) (child : Nat) : Wait → Option (Except String Nat)
  | .status status => some (.ok (exitStatus status))
  | .failed .EINTR => none
  | .failed errno => some (.error (waitError strerror child errno))

def waitedOwn (strerror : Errno → String) (child : Nat) : Wait → Option (Except String Nat)
  | .status status => some (.ok (exitStatus status))
  | .failed .EINTR => none
  | .failed .ECHILD => none
  | .failed errno => some (.error (waitError strerror child errno))

def getExitStatus (strerror : Errno → String) (child : Nat) (waits : Nat → Wait) (fuel : Nat) : Option (Except String Nat) :=
  poll (waited strerror child) waits fuel

def runExitStatus (strerror : Errno → String) (binaryName : String) (fork : Option Nat) (waits : Nat → Wait) (fuel : Nat) :
    Option (Except String Nat) :=
  match fork with
  | none => some (.error ("fork() for " ++ binaryName ++ " failed!"))
  | some child => poll (waitedOwn strerror child) waits fuel

-- A signal number goes into seven bits; 0 and 127 mean something else there.
structure Signal where
  number : Nat
  positive : 0 < number
  small : number < 127

inductive Ending where
  | exited (code : Fin 256)
  | killed (signal : Signal) (core : Bool)
  | reaped

def Ending.wait : Ending → Wait
  | .exited code => .status (256 * code)
  | .killed signal core => .status (signal.number + if core then 128 else 0)
  | .reaped => .failed .ECHILD

def Ending.waits (ending : Ending) (interrupts k : Nat) : Wait := if k < interrupts then .failed .EINTR else ending.wait

structure Honest (ending : Ending) (run : Nat → Option (Except String Nat)) : Prop where
  ends : ∃ fuel result, run fuel = some result
  zero : ∀ fuel, run fuel = some (.ok 0) → ending = .exited 0

section Waiting
variable {ending : Ending} {interrupts : Nat}

theorem waits_cases (ending : Ending) (interrupts k : Nat) : ending.waits interrupts k = .failed .EINTR ∨ ending.waits interrupts k = ending.wait := by
  unfold Ending.waits
  split
  · exact .inl rfl
  · exact .inr rfl

theorem exited_zero (none : exitStatus (256 * (code : Fin 256).1) = 0) : code = 0 := by
  unfold exitStatus at none
  apply Fin.ext
  omega

theorem killed_zero (signal : Signal) (core : Bool) : exitStatus (signal.number + if core then 128 else 0) = 0 := by
  have small := signal.small
  unfold exitStatus
  split <;> omega

variable {settle : Wait → Option (Except String Nat)} (retried : settle (.failed .EINTR) = none)
include retried

theorem honest_settled (decided : settle ending.wait = some result) :
    Honest ending (poll settle (ending.waits interrupts)) ↔ (result = .ok 0 → ending = .exited 0) := by
  have run : poll settle (ending.waits interrupts) (interrupts + 1 + 0) = some result :=
    poll_settled (fun k less => by rw [Ending.waits,if_pos less,retried]) (by rw [Ending.waits,if_neg (by omega),decided]) 0
  constructor
  · intro honest zero
    exact honest.zero _ (run.trans (by rw [zero]))
  · intro meaning
    refine ⟨⟨_,_,run⟩,fun fuel done => meaning ?_⟩
    obtain ⟨k,settled,_⟩ := poll_answer done
    rcases waits_cases ending interrupts k with same | same
    · rw [same,retried] at settled
      cases settled
    · rw [same,decided] at settled
      exact Option.some.inj settled

theorem honest_unsettled (asking : settle ending.wait = none) : ¬ Honest ending (poll settle (ending.waits interrupts)) := by
  intro honest
  obtain ⟨fuel,result,done⟩ := honest.ends
  rw [poll_unsettled (fun k => ?_)] at done
  · cases done
  · rcases waits_cases ending interrupts k with same | same
    · rw [same,retried]
    · rw [same,asking]

theorem honest_exited (decided : ∀ status, settle (.status status) = some (.ok (exitStatus status))) (code : Fin 256) :
    Honest (.exited code) (poll settle ((Ending.exited code).waits interrupts)) := by
  have settled : settle (Ending.exited code).wait = some (.ok (exitStatus (256 * code))) := decided _
  refine (honest_settled retried settled).mpr fun zero => ?_
  rw [exited_zero (Except.ok.inj zero)]

theorem honest_killed (decided : ∀ status, settle (.status status) = some (.ok (exitStatus status))) (signal : Signal) (core : Bool) :
    ¬ Honest (.killed signal core) (poll settle ((Ending.killed signal core).waits interrupts)) := by
  have settled : settle (Ending.killed signal core).wait = some (.ok 0) := by rw [← killed_zero signal core]; exact decided _
  intro honest
  cases (honest_settled retried settled).mp honest rfl

end Waiting

theorem exit_status_exact (strerror : Errno → String) (binaryName : String) (child interrupts : Nat) (ending : Ending) :
    (Honest ending (getExitStatus strerror child (ending.waits interrupts)) ↔ ∀ signal core, ending ≠ .killed signal core) ∧
    (Honest ending (runExitStatus strerror binaryName (some child) (ending.waits interrupts)) ↔ ∃ code, ending = .exited code) := by
  cases ending with
  | exited code => exact ⟨iff_of_true (honest_exited rfl (fun _ => rfl) code) nofun,
      iff_of_true (honest_exited rfl (fun _ => rfl) code) ⟨code,rfl⟩⟩
  | killed signal core =>
    refine ⟨iff_of_false (honest_killed rfl (fun _ => rfl) signal core) fun other => other signal core rfl,?_⟩
    exact iff_of_false (honest_killed rfl (fun _ => rfl) signal core) nofun
  | reaped =>
    refine ⟨iff_of_true ((honest_settled rfl rfl).mpr nofun) nofun,?_⟩
    -- Nothing is thrown and nothing returned: the loop asks again.
    exact iff_of_false (honest_unsettled rfl rfl) nofun

-- A segmentation fault counts as success, and after ECHILD the loop does not end.
theorem killed_child_succeeds : getExitStatus (fun _ => "") 70 ((Ending.killed ⟨11,by decide,by decide⟩ false).waits 1) 2 = some (.ok 0) ∧
    ∀ fuel, runExitStatus (fun _ => "") "true" (some 70) (Ending.reaped.waits 0) fuel = none :=
  ⟨rfl,fun fuel => poll_unsettled (fun _ => rfl) fuel⟩

end CommonTools.Useful
