import Mathlib.Data.List.Sort
import CommonTools.Library.OrderedMaps

-- Counting in an ordered map, and dealing items out in the order of its keys.
namespace Tallies
open OrderedMaps
open List hiding after lookup

variable {κ : Type} [LinearOrder κ]

def bump (counts : OrderedMap κ Nat) (key : κ) : OrderedMap κ Nat := counts.insert key ((counts.find key).getD 0 + 1)

def tally (keys : List κ) : OrderedMap κ Nat := keys.foldl bump .empty

theorem tally_snoc {keys : List κ} {key : κ} : tally (keys ++ [key]) = bump (tally keys) key := by
  simp [tally]

theorem find_tally {keys : List κ} {key : κ} : (tally keys).find key = if key ∈ keys then some (keys.count key) else none := by
  induction keys using reverseRecOn with
  | nil => rfl
  | append_singleton keys last ih =>
    rw [tally_snoc,bump]
    by_cases own : key = last
    · subst own
      by_cases known : key ∈ keys
      · simp [ih,known]
      · simp [ih,known,count_eq_zero.mpr known]
    · simp [ih,own,count_append,Ne.symm own]

theorem count_tally {keys : List κ} : ((tally keys).find key).getD 0 = keys.count key := by
  rw [find_tally]
  by_cases known : key ∈ keys
  · simp [known]
  · simp [known,count_eq_zero.mpr known]

def spread {α : Type} (shares : List (α × Nat)) : List α := shares.flatMap fun share => List.replicate share.2 share.1

theorem mem_spread (inside : key ∈ spread shares) : key ∈ shares.map Prod.fst := by
  obtain ⟨share,listed,copy⟩ := mem_flatMap.mp inside
  exact mem_map.mpr ⟨share,listed,(eq_of_mem_replicate copy).symm⟩

theorem spread_map {f : α → β} {shares : List (α × Nat)} :
    (spread shares).map f = spread (shares.map fun share => (f share.1,share.2)) := by
  simp [spread,map_flatMap,flatMap_map]

theorem spread_sorted {shares : List (κ × Nat)} (sorted : shares.Pairwise fun one two => one.1 < two.1) :
    (spread shares).Pairwise (· ≤ ·) := by
  induction shares with
  | nil => exact .nil
  | cons share shares ih =>
    obtain ⟨least,rest⟩ := pairwise_cons.mp sorted
    refine pairwise_append.mpr ⟨pairwise_replicate.mpr (.inr (le_refl _)),ih rest,?_⟩
    intro key copy later inside
    obtain ⟨other,listed,rfl⟩ := mem_map.mp (mem_spread inside)
    rw [eq_of_mem_replicate copy]
    exact le_of_lt (least other listed)

theorem count_spread (sorted : shares.Pairwise fun one two => one.1 < two.1) {key : κ} :
    (spread shares).count key = (lookup key shares).getD 0 := by
  induction shares with
  | nil => rfl
  | cons share shares ih =>
    obtain ⟨least,rest⟩ := pairwise_cons.mp sorted
    have parts : spread (share :: shares) = List.replicate share.2 share.1 ++ spread shares := rfl
    rw [parts,count_append,count_replicate]
    by_cases own : share.1 = key
    · have absent : key ∉ spread shares := fun inside => by
        obtain ⟨other,listed,same⟩ := mem_map.mp (mem_spread inside)
        exact absurd (own.trans same.symm) (ne_of_lt (least other listed))
      simp [lookup,own,count_eq_zero.mpr absent]
    · simp [lookup,own,ih rest]

theorem spread_tally_perm {keys : List κ} : (spread (tally keys).entries).Perm keys := by
  rw [perm_iff_count]
  intro key
  rw [count_spread (tally keys).sorted]
  exact count_tally

theorem spread_tally_iff {keys : List κ} : spread (tally keys).entries = keys ↔ keys.Pairwise (· ≤ ·) := by
  have ascending := spread_sorted (tally keys).sorted
  constructor
  · intro same
    rwa [same] at ascending
  · intro sorted
    exact spread_tally_perm.eq_of_pairwise (fun _ _ _ _ => le_antisymm) ascending sorted

section Dealing
variable {α β : Type}

def deal : List (α × Nat) → List β → List (α × List β)
  | [],_ => []
  | share :: shares,items => (share.1,items.take share.2) :: deal shares (items.drop share.2)

theorem deal_map (shares : List (α × Nat)) (items : List β) : (deal shares items).map Prod.fst = shares.map Prod.fst := by
  induction shares generalizing items with
  | nil => rfl
  | cons share shares ih => simp [deal,ih]

theorem deal_zip {shares : List (α × Nat)} {items : List β} (enough : (spread shares).length = items.length) :
    (deal shares items).flatMap (fun row => row.2.map fun item => (row.1,item)) = (spread shares).zip items := by
  induction shares generalizing items with
  | nil => rfl
  | cons share shares ih =>
    have parts : spread (share :: shares) = List.replicate share.2 share.1 ++ spread shares := rfl
    rw [parts,length_append,length_replicate] at enough
    have first : (items.take share.2).length = share.2 := by rw [length_take]; omega
    have rest : (spread shares).length = (items.drop share.2).length := by rw [length_drop]; omega
    have here : (items.take share.2).map (fun item => (share.1,item)) =
        (List.replicate share.2 share.1).zip (items.take share.2) := by
      have copies : List.replicate share.2 share.1 = (items.take share.2).map fun _ => share.1 := by rw [map_const',first]
      rw [copies]
      exact map_prod_right_eq_zip
    rw [deal,flatMap_cons,ih rest,parts]
    conv_rhs => rw [← take_append_drop share.2 items]
    rw [zip_append (by rw [length_replicate,first]),here]

theorem deal_length (enough : (spread shares).length = items.length)
    (listed : row ∈ deal shares items) : (row.1,row.2.length) ∈ shares := by
  induction shares generalizing items with
  | nil => cases listed
  | cons share shares ih =>
    have parts : spread (share :: shares) = List.replicate share.2 share.1 ++ spread shares := rfl
    rw [parts,length_append,length_replicate] at enough
    rcases mem_cons.mp listed with rfl | later
    · have first : (items.take share.2).length = share.2 := by rw [length_take]; omega
      simp [first]
    · exact mem_cons_of_mem _ (ih (by rw [length_drop]; omega) later)

end Dealing

end Tallies
