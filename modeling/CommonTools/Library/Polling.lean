import Mathlib.Data.Nat.Basic

namespace Polling

-- A loop that asks until an answer settles it; none as long as it is asking.
def poll (settle : α → Option β) : (Nat → α) → Nat → Option β
  | _,0 => none
  | answers,fuel + 1 =>
    match settle (answers 0) with
    | some result => some result
    | none => poll settle (fun k => answers (k + 1)) fuel

variable {settle : α → Option β} {answers : Nat → α}

theorem poll_unsettled (asking : ∀ k, settle (answers k) = none) (fuel : Nat) : poll settle answers fuel = none := by
  induction fuel generalizing answers with
  | zero => rfl
  | succ fuel ih =>
    rw [poll,asking 0]
    exact ih fun k => asking (k + 1)

theorem poll_settled (asking : ∀ k < first, settle (answers k) = none) (decided : settle (answers first) = some result) (fuel : Nat) :
    poll settle answers (first + 1 + fuel) = some result := by
  induction first generalizing answers with
  | zero => rw [Nat.add_comm,poll,decided]
  | succ first ih =>
    have shift : first + 1 + 1 + fuel = (first + 1 + fuel) + 1 := by omega
    rw [shift,poll,asking 0 (by omega)]
    exact ih (fun k less => asking (k + 1) (by omega)) decided

theorem poll_answer (done : poll settle answers fuel = some result) :
    ∃ k, settle (answers k) = some result ∧ ∀ j < k, settle (answers j) = none := by
  induction fuel generalizing answers with
  | zero => cases done
  | succ fuel ih =>
    cases here : settle (answers 0) with
    | some other =>
      rw [poll,here] at done
      exact ⟨0,here.trans done,fun _ less => absurd less (Nat.not_lt_zero _)⟩
    | none =>
      rw [poll,here] at done
      obtain ⟨k,settled,asking⟩ := ih done
      refine ⟨k + 1,settled,fun j less => ?_⟩
      cases j with
      | zero => exact here
      | succ j => exact asking j (Nat.lt_of_succ_lt_succ less)

end Polling
