import Mathlib.Data.Int.Basic
import CommonTools.Library.Polling

namespace CommonTools.Remote
open Polling

def eagain : Int := -37

-- select on the socket: how many descriptors are ready, or errno and its text.
inductive Select where
  | ready (count : Nat)
  | again
  | failed (strerror : String)

-- channel_wait gives back what select did, which nothing looks at, or throws.
def channelWait : Select → Option (Except String Nat)
  | .ready _ => none
  | .again => none
  | .failed strerror => some (.error ("select on SSH socket failed: " ++ strerror))

-- How often the channel was closed when the function returns. close_rc is not set in the loop.
def waitCloseChannel (close : Nat → Int) (select : Nat → Select) (fuel : Nat) : Option (Except String Nat) :=
  let closeRc := close 0
  if closeRc = eagain then poll channelWait select fuel else some (.ok 1)

def closing (blocked : Nat) (rc : {rc : Int // rc ≠ eagain}) (k : Nat) : Int := if k < blocked then eagain else rc

def Closes (blocked : Nat) (rc : {rc : Int // rc ≠ eagain}) (select : Nat → Select) : Prop :=
  ∃ fuel, waitCloseChannel (closing blocked rc) select fuel = some (.ok (blocked + 1))

theorem channelWait_throws (ended : channelWait answer = some result) : ∃ message, result = .error message := by
  cases answer with
  | ready count | again => cases ended
  | failed strerror => exact ⟨_,(Option.some.inj ended).symm⟩

theorem blocked_unclosed (blocked : Nat) (rc : {rc : Int // rc ≠ eagain}) :
    waitCloseChannel (closing (blocked + 1) rc) select fuel ≠ some (.ok attempts) := by
  intro returned
  have first : closing (blocked + 1) rc 0 = eagain := if_pos (by omega)
  obtain ⟨k,settled,_⟩ := poll_answer returned
  obtain ⟨message,wrong⟩ := channelWait_throws settled
  cases wrong

theorem channel_closed_exact (blocked : Nat) (rc : {rc : Int // rc ≠ eagain}) (select : Nat → Select) :
    Closes blocked rc select ↔ blocked = 0 := by
  cases blocked with
  | zero => exact iff_of_true ⟨0,if_neg rc.2⟩ rfl
  | succ blocked =>
    refine iff_of_false ?_ (by omega)
    rintro ⟨fuel,returned⟩
    exact blocked_unclosed blocked rc returned

-- One result that would block, and a socket that is always ready: no end of waiting.
theorem close_never_returns : ¬ Closes 1 ⟨0,by decide⟩ (fun _ => .ready 1) ∧
    ∀ fuel, waitCloseChannel (closing 1 ⟨0,by decide⟩) (fun _ => .ready 1) fuel = none :=
  ⟨fun closes => closes.elim fun _ => blocked_unclosed 0 _,poll_unsettled fun _ => rfl⟩

end CommonTools.Remote
