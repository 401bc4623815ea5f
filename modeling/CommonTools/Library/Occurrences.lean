import Mathlib.Data.List.Count
import Mathlib.Data.List.Induction
import Mathlib.Data.List.Nodup

namespace Occurrences
open List hiding count
variable {α : Type} {xs : List α} {x : α}

theorem only_inside (counted : xs.countP p = count) (block : ∀ i, first ≤ i → i < first + count → ∃ y, xs[i]? = some y ∧ p y = true)
    (there : xs[i]? = some x) (holds : p x = true) : first ≤ i ∧ i < first + count := by
  have split : xs = xs.take first ++ ((xs.drop first).take count ++ (xs.drop first).drop count) := by rw [take_append_drop,take_append_drop]
  have middle : ((xs.drop first).take count).countP p = count := by
    have all : ∀ y ∈ (xs.drop first).take count, p y = true := by
      intro y listed
      obtain ⟨j,bound,rfl⟩ := mem_iff_getElem.mp listed
      rw [length_take,length_drop] at bound
      obtain ⟨y,there,holds⟩ := block (first + j) (by omega) (by omega)
      rw [getElem_take,getElem_drop]
      rw [getElem?_eq_getElem (by omega)] at there
      cases there
      exact holds
    rw [countP_eq_length.mpr all,length_take,length_drop]
    rcases Nat.eq_zero_or_pos count with zero | positive
    · omega
    · obtain ⟨_,last,_⟩ := block (first + count - 1) (by omega) (by omega)
      have := (List.getElem?_eq_some_iff.mp last).1
      omega
  rw [split,countP_append,countP_append] at counted
  have before : (xs.take first).countP p = 0 := by omega
  have after : ((xs.drop first).drop count).countP p = 0 := by omega
  constructor
  · by_contra early
    have listed : x ∈ xs.take first := by
      refine mem_of_getElem? (i := i) ?_
      rw [getElem?_take_of_lt (by omega)]
      exact there
    exact countP_eq_zero.mp before x listed holds
  · by_contra late
    have listed : x ∈ (xs.drop first).drop count := by
      refine mem_of_getElem? (i := i - (first + count)) ?_
      rw [getElem?_drop,getElem?_drop,show first + (count + (i - (first + count))) = i by omega]
      exact there
    exact countP_eq_zero.mp after x listed holds

variable [BEq α] [LawfulBEq α]

theorem idxOf_first (there : xs[i]? = some x) : xs.idxOf x ≤ i := by
  induction xs generalizing i with
  | nil => cases there
  | cons y xs ih =>
    by_cases here : y = x
    · rw [here,idxOf_cons_self]
      omega
    · rw [idxOf_cons_ne _ here]
      cases i with
      | zero => exact absurd (Option.some.inj there) here
      | succ i => exact Nat.succ_le_succ (ih there)

theorem getElem_idxOf (listed : x ∈ xs) : xs[xs.idxOf x]? = some x := getElem?_idxOf listed

theorem first_room (xs : List α) (x : α) : xs.idxOf x + xs.count x ≤ xs.length := by
  induction xs with
  | nil => simp
  | cons y xs ih =>
    by_cases here : y = x
    · rw [here,idxOf_cons_self,Nat.zero_add]
      exact count_le_length
    · rw [idxOf_cons_ne _ here,count_cons_of_ne here,length_cons]
      omega

def Together (xs : List α) : Prop :=
  ∀ (i j k : Nat) (x : α), i < j → j < k → xs[i]? = some x → xs[k]? = some x → xs[j]? = some x

theorem together_block (together : Together xs) (listed : x ∈ xs) (low : xs.idxOf x ≤ i)
    (high : i < xs.idxOf x + xs.count x) : xs[i]? = some x := by
  by_contra other
  have first := getElem_idxOf listed
  have later : xs.idxOf x < i := by
    rcases Nat.lt_or_eq_of_le low with less | same
    · exact less
    · exact absurd (same ▸ first) other
  -- Nothing from there on, so at most the places up to there.
  have none : ∀ k, i ≤ k → xs[k]? ≠ some x := by
    intro k after there
    rcases Nat.lt_or_eq_of_le after with less | same
    · exact other (together _ i k x later less first there)
    · exact other (same ▸ there)
  have rest : (xs.drop i).count x = 0 := count_eq_zero.mpr fun inside => by
    obtain ⟨k,there⟩ := mem_iff_getElem?.mp inside
    rw [getElem?_drop] at there
    exact none (i + k) (by omega) there
  have most : xs.count x = (xs.take i).count x := by
    conv_lhs => rw [← take_append_drop i xs]
    rw [count_append,rest,Nat.add_zero]
  have before : x ∈ xs.take i := by
    refine mem_of_getElem? (i := xs.idxOf x) ?_
    rw [getElem?_take_of_lt later]
    exact first
  have same : (xs.take i).idxOf x = xs.idxOf x := by
    conv_rhs => rw [← take_append_drop i xs]
    rw [idxOf_append_of_mem before]
  have room := first_room (xs.take i) x
  have short : (xs.take i).length ≤ i := length_take_le ..
  omega

theorem block_together (block : ∀ x ∈ xs, ∀ i, xs.idxOf x ≤ i → i < xs.idxOf x + xs.count x → xs[i]? = some x) : Together xs := by
  intro i j k x less more first last
  have listed := mem_of_getElem? first
  have low := idxOf_first first
  have high : k < xs.idxOf x + xs.count x :=
    (only_inside (p := (· == x)) rfl (fun i low high => ⟨x,block x listed i low high,beq_self_eq_true x⟩) last
      (beq_self_eq_true x)).2
  exact block x listed j (by omega) (by omega)

theorem eraseDups_append : (xs ++ [x]).eraseDups = xs.eraseDups ++ if x ∈ xs then [] else [x] := by
  rw [List.eraseDups_append,List.removeAll]
  by_cases known : x ∈ xs <;> simp [known,List.eraseDups_cons]

theorem eraseDups_ordered : xs.eraseDups.Pairwise fun one two => xs.idxOf one < xs.idxOf two := by
  induction xs using reverseRecOn with
  | nil => exact .nil
  | append_singleton xs x ih =>
    have kept : xs.eraseDups.Pairwise fun one two => (xs ++ [x]).idxOf one < (xs ++ [x]).idxOf two :=
      ih.imp_of_mem fun first second less => by
        rwa [idxOf_append_of_mem (mem_eraseDups.mp first),idxOf_append_of_mem (mem_eraseDups.mp second)]
    rw [eraseDups_append]
    split
    · rwa [append_nil]
    · rename_i new
      refine pairwise_append.mpr ⟨kept,pairwise_singleton _ _,fun one before two last => ?_⟩
      have old := mem_eraseDups.mp before
      cases mem_singleton.mp last
      rw [idxOf_append_of_mem old,idxOf_append,if_neg new]
      have := idxOf_lt_length_of_mem old
      omega

theorem eraseDups_nodup : xs.eraseDups.Nodup :=
  eraseDups_ordered.imp fun less same => by
    rw [same] at less
    omega

end Occurrences
