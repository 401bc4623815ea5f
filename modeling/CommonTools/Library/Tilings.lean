import Mathlib.Algebra.Ring.Nat
import Mathlib.Algebra.BigOperators.Group.List.Basic

-- Intervals of numbers, each given by its start and its length.
namespace Tilings
open List hiding length

def Contains (interval : Nat × Nat) (r : Nat) : Prop := interval.1 ≤ r ∧ r < interval.1 + interval.2

structure Tiles (start stop : Nat) (intervals : List (Nat × Nat)) : Prop where
  disjoint : intervals.Pairwise fun one two => ∀ r, ¬ (Contains one r ∧ Contains two r)
  cover : ∀ r, (start ≤ r ∧ r < stop) ↔ ∃ interval ∈ intervals, Contains interval r
  ordered : intervals.Pairwise fun one two => one.1 + one.2 ≤ two.1

def packed (start : Nat) : List Nat → List (Nat × Nat)
  | [] => []
  | length :: rest => (start,length) :: packed (start + length) rest

variable {start stop : Nat} {intervals : List (Nat × Nat)}

theorem packed_lengths : (packed start lengths).map Prod.snd = lengths := by
  induction lengths generalizing start with
  | nil => rfl
  | cons length rest ih => rw [packed,map_cons,ih]

theorem packed_from (inside : interval ∈ packed start lengths) : start ≤ interval.1 := by
  induction lengths generalizing start with
  | nil => cases inside
  | cons length rest ih =>
    rcases mem_cons.mp inside with rfl | later
    · exact Nat.le_refl _
    · exact Nat.le_trans (Nat.le_add_right _ _) (ih later)

theorem packed_tiles (start : Nat) : Tiles start (start + lengths.sum) (packed start lengths) := by
  induction lengths generalizing start with
  | nil =>
    refine ⟨.nil,fun r => ?_,.nil⟩
    simp only [packed,not_mem_nil,false_and,exists_false,iff_false,sum_nil]
    omega
  | cons length rest ih =>
    obtain ⟨disjoint,cover,ordered⟩ := ih (start + length)
    refine ⟨pairwise_cons.mpr ⟨fun other later r both => ?_,disjoint⟩,fun r => ?_,
      pairwise_cons.mpr ⟨fun other later => packed_from later,ordered⟩⟩
    · have behind := packed_from later
      have first := both.1.2
      have second := both.2.1
      omega
    · rw [packed,exists_mem_cons_iff,← cover r,sum_cons,Contains]
      omega

theorem Tiles.head (tiles : Tiles start stop ((first,length) :: rest)) (positive : 0 < length) : first = start := by
  have own : Contains (first,length) first := ⟨Nat.le_refl _,by simpa using positive⟩
  have bounds := (tiles.cover first).mpr ⟨_,mem_cons_self,own⟩
  obtain ⟨interval,listed,contains⟩ := (tiles.cover start).mp ⟨Nat.le_refl _,by omega⟩
  rcases mem_cons.mp listed with rfl | later
  · have low := contains.1
    omega
  · have behind := (pairwise_cons.mp tiles.ordered).1 interval later
    have low := contains.1
    omega

theorem Tiles.tail (tiles : Tiles start stop ((start,length) :: rest)) : Tiles (start + length) stop rest := by
  obtain ⟨first,ordered⟩ := pairwise_cons.mp tiles.ordered
  refine ⟨(pairwise_cons.mp tiles.disjoint).2,fun r => ?_,ordered⟩
  have cover := tiles.cover r
  rw [exists_mem_cons_iff] at cover
  constructor
  · intro bounds
    rcases cover.mp ⟨by omega,bounds.2⟩ with own | later
    · have high := own.2
      omega
    · exact later
  · intro later
    obtain ⟨interval,listed,contains⟩ := later
    have behind := first interval listed
    have low := contains.1
    have bounds := cover.mpr (.inr ⟨interval,listed,contains⟩)
    omega

theorem tiles_packed (positive : ∀ interval ∈ intervals, 0 < interval.2) (tiles : Tiles start stop intervals) :
    intervals = packed start (intervals.map Prod.snd) := by
  induction intervals generalizing start with
  | nil => rfl
  | cons interval rest ih =>
    obtain ⟨own,others⟩ := forall_mem_cons.mp positive
    have same := tiles.head own
    subst same
    rw [map_cons,packed,← ih others tiles.tail]

theorem tiles_iff (positive : ∀ interval ∈ intervals, 0 < interval.2) (total : stop = start + (intervals.map Prod.snd).sum) :
    Tiles start stop intervals ↔ intervals = packed start (intervals.map Prod.snd) := by
  refine ⟨tiles_packed positive,fun same => ?_⟩
  rw [total,same,packed_lengths]
  exact packed_tiles start

end Tilings
