import Mathlib.Data.List.Basic
import Mathlib.Data.List.Perm.Basic

-- The lines of several writers as one reader may see them.
namespace Interleavings
open List
variable {α : Type}

inductive Merge : List (List α) → List α → Prop where
  | done {streams : List (List α)} : (∀ stream ∈ streams, stream = []) → Merge streams []
  | next (before after : List (List α)) {stream output : List α} (x : α) :
    Merge (before ++ stream :: after) output → Merge (before ++ (x :: stream) :: after) (x :: output)

theorem Merge.perm (merged : Merge streams output) : output.Perm streams.flatten := by
  induction merged with
  | done ended => simp [flatten_eq_nil_iff.mpr ended]
  | next before after x _ ih =>
    rw [flatten_append] at ih ⊢
    exact (ih.cons x).trans perm_middle.symm

theorem Merge.last {streams : List (List α)} {output : List α} (merged : Merge streams output) {last : α}
    (ends : ∀ stream ∈ streams, stream = [] ∨ stream.getLast? = some last) : output = [] ∨ output.getLast? = some last := by
  induction merged with
  | done => exact .inl rfl
  | @next before after stream output x merged ih =>
    have rest : ∀ other ∈ before ++ stream :: after, other = [] ∨ other.getLast? = some last := by
      intro other inside
      rcases mem_append.mp inside with inside | inside
      · exact ends other (mem_append_left _ inside)
      · rcases mem_cons.mp inside with rfl | inside
        · rcases ends (x :: other) (by simp) with none | ended
          · cases none
          · cases other with
            | nil => exact .inl rfl
            | cons y other => exact .inr (by simpa using ended)
        · exact ends other (mem_append_right _ (mem_cons_of_mem _ inside))
    rcases ih rest with rfl | ended
    · -- Nothing is left after this line, so its own stream ends with it.
      have none : stream = [] := by
        have all := merged.perm.symm.eq_nil
        simp only [flatten_append,flatten_cons,append_eq_nil_iff] at all
        exact all.2.1
      rcases ends (x :: stream) (by simp) with absent | ended
      · cases absent
      · exact .inr (by simpa [none] using ended)
    · refine .inr ?_
      cases output with
      | nil => cases ended
      | cons y output => simpa using ended

theorem Merge.after_done (merged : Merge streams output) : Merge ([] :: streams) output := by
  induction merged with
  | done ended =>
    refine .done fun stream inside => ?_
    rcases mem_cons.mp inside with rfl | inside
    · rfl
    · exact ended stream inside
  | next before after x _ ih => exact .next ([] :: before) after x ih

theorem merge_flatten (streams : List (List α)) : Merge streams streams.flatten := by
  induction streams with
  | nil => exact .done nofun
  | cons stream streams ih =>
    induction stream with
    | nil => exact ih.after_done
    | cons x stream step => exact .next [] streams x step

theorem merge_first (before after : List (List α)) (stream : List α) :
    Merge (before ++ stream :: after) (stream ++ (before ++ after).flatten) := by
  induction stream with
  | nil =>
    have merged := merge_flatten (before ++ [] :: after)
    simpa using merged
  | cons x stream ih => exact .next before after x ih

theorem Merge.takeWhile (merged : Merge streams output)
    (read : x ∈ output.takeWhile test) : ∃ stream ∈ streams, x ∈ stream.takeWhile test := by
  induction merged with
  | done => cases read
  | @next before after stream output y _ ih =>
    rw [takeWhile_cons] at read
    split at read
    · rename_i passed
      have here : (y :: stream).takeWhile test = y :: stream.takeWhile test := takeWhile_cons_of_pos passed
      rcases mem_cons.mp read with rfl | later
      · exact ⟨_,mem_append_right _ mem_cons_self,here ▸ mem_cons_self⟩
      · obtain ⟨found,listed,inside⟩ := ih later
        rcases mem_append.mp listed with listed | listed
        · exact ⟨found,mem_append_left _ listed,inside⟩
        · rcases mem_cons.mp listed with rfl | listed
          · exact ⟨_,mem_append_right _ mem_cons_self,here ▸ mem_cons_of_mem _ inside⟩
          · exact ⟨found,mem_append_right _ (mem_cons_of_mem _ listed),inside⟩
    · cases read

end Interleavings
