import Mathlib.Data.List.Basic

namespace Insertions

section Inserting
variable {α : Type} [DecidableEq α]

-- A new entry right behind the first occurrence of a mark, or in front of all.
def insertAfter (mark new : α) (entries : List α) : List α :=
  if mark ∈ entries then entries.takeWhile (· ≠ mark) ++ mark :: new :: (entries.dropWhile (· ≠ mark)).tail
  else new :: entries

variable {mark new entry : α} {entries : List α}

theorem insertAfter_absent (absent : mark ∉ entries) : insertAfter mark new entries = new :: entries := if_neg absent

theorem insertAfter_head : insertAfter mark new (mark :: entries) = mark :: new :: entries := by
  simp [insertAfter]

theorem insertAfter_later (other : entry ≠ mark) (present : mark ∈ entries) :
    insertAfter mark new (entry :: entries) = entry :: insertAfter mark new entries := by
  simp [insertAfter,present,other]

theorem insertAfter_perm (mark new : α) (entries : List α) : (insertAfter mark new entries).Perm (new :: entries) := by
  by_cases present : mark ∈ entries
  · induction entries with
    | nil => cases present
    | cons entry entries ih =>
      by_cases same : entry = mark
      · subst same
        rw [insertAfter_head]
        exact .swap _ _ _
      · have later := (List.mem_cons.mp present).resolve_left (Ne.symm same)
        rw [insertAfter_later same later]
        exact ((ih later).cons entry).trans (.swap _ _ _)
  · rw [insertAfter_absent present]

theorem insertAfter_last (absent : mark ∉ entries) : insertAfter mark new (entries ++ [mark]) = entries ++ [mark,new] := by
  induction entries with
  | nil => simp [insertAfter]
  | cons entry entries ih =>
    obtain ⟨apart,later⟩ := not_or.mp (List.mem_cons.not.mp absent)
    rw [List.cons_append,insertAfter_later (Ne.symm apart) (by simp),ih later]
    rfl

end Inserting

end Insertions
