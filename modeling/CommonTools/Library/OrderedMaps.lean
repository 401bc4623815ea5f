import Mathlib.Data.String.Basic
import Mathlib.Data.List.Induction
import Mathlib.Data.List.Nodup

namespace OrderedMaps
open List

-- A finite map kept as its entries in increasing key order, one entry a key.
-- Iterating it visits the keys in that order, as an ordered container does.
structure OrderedMap (κ ν : Type) [LinearOrder κ] where
  entries : List (κ × ν)
  sorted : entries.Pairwise (fun left right => left.1 < right.1)

variable {κ ν ι : Type} [LinearOrder κ] [LinearOrder ι]

def lookup (key : κ) : List (κ × ν) → Option ν
  | [] => none
  | (k,v) :: rest => if k = key then some v else lookup key rest

def put (key : κ) (value : ν) : List (κ × ν) → List (κ × ν)
  | [] => [(key,value)]
  | (k,v) :: rest =>
    if key = k then (key,value) :: rest
    else if key < k then (key,value) :: (k,v) :: rest
    else (k,v) :: put key value rest

theorem put_keys {rows : List (κ × ν)} (present : row ∈ put key value rows) : row.1 = key ∨ row ∈ rows := by
  induction rows with
  | nil => simp only [put,mem_singleton] at present; exact .inl (by rw [present])
  | cons head rest ih =>
    simp only [put] at present
    split at present
    · rcases mem_cons.mp present with rfl | old
      · exact .inl rfl
      · exact .inr (mem_cons_of_mem _ old)
    · split at present
      · rcases mem_cons.mp present with rfl | old
        · exact .inl rfl
        · exact .inr old
      · rcases mem_cons.mp present with rfl | old
        · exact .inr (by simp)
        · exact (ih old).imp id (mem_cons_of_mem _)

theorem put_nonempty {key : κ} {value : ν} {rows : List (κ × ν)} : (put key value rows).isEmpty = false := by
  cases rows with
  | nil => rfl
  | cons head rest => simp only [put]; split <;> [rfl; split <;> rfl]

section
variable {rows : List (κ × ν)}

theorem put_sorted (sorted : rows.Pairwise (fun l r => l.1 < r.1)) : (put key value rows).Pairwise (fun l r => l.1 < r.1) := by
  induction rows with
  | nil => simp [put]
  | cons head rest ih =>
    obtain ⟨below,tail⟩ := pairwise_cons.mp sorted
    simp only [put]
    split
    · rename_i same
      exact pairwise_cons.mpr ⟨fun row present => by rw [same]; exact below row present,tail⟩
    · rename_i differs
      split
      · rename_i before
        refine pairwise_cons.mpr ⟨?_,sorted⟩
        intro row present
        rcases mem_cons.mp present with rfl | old
        · exact before
        · exact lt_trans before (below row old)
      · rename_i notBefore
        refine pairwise_cons.mpr ⟨?_,ih tail⟩
        intro row present
        rcases put_keys present with same | old
        · rw [same]; exact lt_of_le_of_ne (not_lt.mp notBefore) (Ne.symm differs)
        · exact below row old

theorem lookup_put : lookup other (put key value rows) = if other = key then some value else lookup other rows := by
  induction rows with
  | nil => simp only [put,lookup,eq_comm]
  | cons head rest ih =>
    obtain ⟨k,v⟩ := head
    simp only [put]
    split
    · rename_i same
      subst same
      by_cases equal : other = key
      · simp [lookup,equal]
      · simp [lookup,equal,Ne.symm equal]
    · rename_i differs
      split
      · simp only [lookup,eq_comm]
      · simp only [lookup,ih]
        by_cases equal : other = key
        · simp [equal,Ne.symm differs]
        · simp [equal]

theorem put_perm (absent : ∀ row ∈ rows, row.1 ≠ key) : (put key value rows).Perm ((key,value) :: rows) := by
  induction rows with
  | nil => exact .refl _
  | cons row rows ih =>
    have other : key ≠ row.1 := (absent row mem_cons_self).symm
    have rest := ih fun row inside => absent row (mem_cons_of_mem _ inside)
    unfold put
    rw [if_neg other]
    split
    · exact .refl _
    · exact (rest.cons row).trans (.swap ..)

theorem lookup_mem (found : lookup key rows = some value) : (key,value) ∈ rows := by
  induction rows with
  | nil => simp [lookup] at found
  | cons head rest ih =>
    simp only [lookup] at found
    split at found
    · rename_i same
      cases found; subst same; simp
    · exact mem_cons_of_mem _ (ih found)

theorem mem_lookup (sorted : rows.Pairwise (fun l r => l.1 < r.1)) (present : (key,value) ∈ rows) : lookup key rows = some value := by
  induction rows with
  | nil => cases present
  | cons head rest ih =>
    obtain ⟨below,tail⟩ := pairwise_cons.mp sorted
    rcases mem_cons.mp present with rfl | old
    · simp [lookup]
    · have above := below _ old
      simp only [lookup,if_neg (ne_of_lt above)]
      exact ih tail old

theorem lookup_filter : lookup other (rows.filter (fun row => !decide (row.1 = key))) =
      if other = key then none else lookup other rows := by
  induction rows with
  | nil => simp [lookup]
  | cons head rest ih =>
    by_cases same : head.1 = key
    · rw [filter_cons_of_neg (by simp [same]),ih]
      by_cases equal : other = key
      · simp [equal]
      · simp [equal,lookup,same,Ne.symm equal]
    · rw [filter_cons_of_pos (by simp [same]),lookup,lookup,ih]
      by_cases equal : other = key
      · simp [equal,same]
      · simp [equal]

end

namespace OrderedMap

def empty : OrderedMap κ ν := ⟨[],.nil⟩

def find (m : OrderedMap κ ν) (key : κ) : Option ν := lookup key m.entries

def insert (m : OrderedMap κ ν) (key : κ) (value : ν) : OrderedMap κ ν :=
  ⟨put key value m.entries,put_sorted m.sorted⟩

def erase (m : OrderedMap κ ν) (key : κ) : OrderedMap κ ν :=
  ⟨m.entries.filter (fun row => !decide (row.1 = key)),m.sorted.filter _⟩

instance [DecidableEq ν] : DecidableEq (OrderedMap κ ν) := fun left right =>
  decidable_of_iff (left.entries = right.entries)
    ⟨fun equal => by cases left; cases right; cases equal; rfl,fun equal => by rw [equal]⟩

@[simp] theorem find_empty {key : κ} : (empty : OrderedMap κ ν).find key = none := rfl

@[simp] theorem find_insert {m : OrderedMap κ ν} {key other : κ} {value : ν} :
    (m.insert key value).find other = if other = key then some value else m.find other :=
  lookup_put

@[simp] theorem find_erase {m : OrderedMap κ ν} {key other : κ} : (m.erase key).find other = if other = key then none else m.find other :=
  lookup_filter

theorem find_mem (row : κ × ν) (m : OrderedMap κ ν) : m.find row.1 = some row.2 ↔ row ∈ m.entries := ⟨lookup_mem,mem_lookup m.sorted⟩

theorem ext_find {left right : OrderedMap κ ν} (agree : ∀ key, left.find key = right.find key) : left = right := by
  obtain ⟨rows,sorted⟩ := left
  obtain ⟨others,sorted'⟩ := right
  have members : ∀ row, row ∈ rows ↔ row ∈ others := by
    intro row
    obtain ⟨key,value⟩ := row
    have one := find_mem (key,value) ⟨rows,sorted⟩
    have two := find_mem (key,value) ⟨others,sorted'⟩
    rw [agree key] at one
    exact one.symm.trans two
  have nodup : ∀ list : List (κ × ν), list.Pairwise (fun l r => l.1 < r.1) → list.Nodup := by
    intro list ordered
    exact ordered.imp (fun below equal => absurd (congrArg Prod.fst equal) (ne_of_lt below))
  have perm := (perm_ext_iff_of_nodup (nodup _ sorted) (nodup _ sorted')).mpr members
  have same : rows = others := by
    refine List.Perm.eq_of_pairwise ?_ sorted sorted' perm
    intro a b _ _ ab ba
    exact absurd (lt_trans ab ba) (lt_irrefl _)
  subst same
  rfl

theorem entries_mapped (f : κ → ν → μ) {left : OrderedMap κ μ} {right : OrderedMap κ ν}
    (agree : ∀ key, left.find key = (right.find key).map (f key)) : left.entries = right.entries.map fun row => (row.1,f row.1 row.2) := by
  have sorted : (right.entries.map fun row => (row.1,f row.1 row.2)).Pairwise fun l r => l.1 < r.1 := pairwise_map.mpr right.sorted
  have looked : ∀ (key : κ) (rows : List (κ × ν)),
      lookup key (rows.map fun row => (row.1,f row.1 row.2)) = (lookup key rows).map (f key) := by
    intro key rows
    induction rows with
    | nil => rfl
    | cons row rows ih =>
      simp only [map_cons,lookup,ih]
      split
      · rename_i own
        rw [← own]
        rfl
      · rfl
  have same : left = ⟨_,sorted⟩ := ext_find fun key => (agree key).trans (looked key right.entries).symm
  rw [same]

theorem keys_nodup (m : OrderedMap κ ν) : (m.entries.map Prod.fst).Nodup := pairwise_map.mpr (m.sorted.imp fun below => ne_of_lt below)

theorem mem_keys {m : OrderedMap κ ν} : key ∈ m.entries.map Prod.fst ↔ (m.find key).isSome = true := by
  rw [Option.isSome_iff_exists]
  constructor
  · intro present
    obtain ⟨row,inside,rfl⟩ := mem_map.mp present
    exact ⟨row.2,(find_mem row m).mpr inside⟩
  · intro ⟨value,found⟩
    exact mem_map.mpr ⟨(key,value),(find_mem (key,value) m).mp found,rfl⟩

def push (m : OrderedMap κ (List ν)) (row : κ × ν) : OrderedMap κ (List ν) :=
  m.insert row.1 ((m.find row.1).getD [] ++ [row.2])

def gather (rows : List (κ × ν)) : OrderedMap κ (List ν) := rows.foldl push empty

def valuesOf (key : κ) (rows : List (κ × ν)) : List ν := (rows.filter fun row => decide (row.1 = key)).map Prod.snd

@[simp] theorem valuesOf_append {key : κ} {left right : List (κ × ν)} :
    valuesOf key (left ++ right) = valuesOf key left ++ valuesOf key right := by
  simp [valuesOf]

theorem valuesOf_map {f : α → κ × ν} {p : α → Bool} {xs : List α}
    (chosen : ∀ x, p x = true ↔ (f x).1 = key) : valuesOf key (xs.map f) = (xs.filter p).map fun x => (f x).2 := by
  rw [valuesOf,filter_map,map_map]
  exact congrArg _ (filter_congr fun x _ => Bool.eq_iff_iff.mpr (decide_eq_true_iff.trans (chosen x).symm))

theorem valuesOf_length_le (key : κ) (rows : List (κ × ν)) : (valuesOf key rows).length ≤ rows.length := by
  rw [valuesOf,length_map]
  exact length_filter_le _ _

theorem valuesOf_all {rows : List (κ × ν)} (all : ∀ row ∈ rows, row.1 = key) : valuesOf key rows = rows.map Prod.snd := by
  rw [valuesOf,filter_eq_self.mpr fun row inside => decide_eq_true (all row inside)]

theorem valuesOf_nil {rows : List (κ × ν)} : valuesOf key rows = [] ↔ key ∉ rows.map Prod.fst := by
  simp only [valuesOf,map_eq_nil_iff,filter_eq_nil_iff,decide_eq_true_eq,mem_map]
  exact ⟨fun absent ⟨row,inside,same⟩ => absent row inside same,fun absent row inside same => absent ⟨row,inside,same⟩⟩

theorem find_gather {rows : List (κ × ν)} :
    (gather rows).find key = if key ∈ rows.map Prod.fst then some (valuesOf key rows) else none := by
  induction rows using reverseRecOn with
  | nil => rfl
  | append_singleton rows row ih =>
    have last : gather (rows ++ [row]) = (gather rows).push row := by rw [gather,foldl_append]; rfl
    rw [last,push,find_insert,ih]
    by_cases own : key = row.1
    · subst own
      have filed : ((gather rows).find row.1).getD [] = valuesOf row.1 rows := by
        rw [ih]
        split
        · rfl
        · rename_i absent
          exact (valuesOf_nil.mpr absent).symm
      simp [filed,valuesOf]
    · have other : valuesOf key [row] = [] := by simp [valuesOf,Ne.symm own]
      have known : key ∈ rows.map Prod.fst ↔ key ∈ (rows ++ [row]).map Prod.fst := by
        simp only [map_append,mem_append,map_singleton,mem_singleton,own,or_false]
      rw [if_neg own,valuesOf_append,other,append_nil]
      exact if_congr known rfl rfl

theorem insert_found {m : OrderedMap κ ν} (found : m.find key = some value) : m.insert key value = m := by
  apply ext_find
  intro other
  rw [find_insert]
  split
  · rename_i equal; rw [equal,found]
  · rfl

theorem erase_absent {m : OrderedMap κ ν} (absent : m.find key = none) : m.erase key = m := by
  apply ext_find
  intro other
  rw [find_erase]
  split
  · rename_i equal; rw [equal,absent]
  · rfl

end OrderedMap

-- Two maps that undo each other, as far as the keys of the first that matter.
def InverseOn (P : κ → Prop) (left : OrderedMap κ ι) (right : OrderedMap ι κ) : Prop :=
  ∀ key value, P key → (left.find key = some value ↔ right.find value = some key)

namespace InverseOn
variable {P : κ → Prop} {left : OrderedMap κ ι} {right : OrderedMap ι κ} {key : κ} {value : ι}

theorem empty : InverseOn P (.empty : OrderedMap κ ι) .empty := by
  intro key value _; simp

section
variable (inverse : InverseOn P left right)
include inverse

theorem insert (absent : left.find key = none) (unknown : right.find value = none) :
    InverseOn P (left.insert key value) (right.insert value key) := by
  intro other found matters
  have old := inverse other found matters
  by_cases sameKey : other = key
  · subst sameKey
    rw [absent] at old
    by_cases same : found = value
    · simp [same]
    · simp [same,Ne.symm same,← old]
  · by_cases same : found = value
    · subst same
      rw [unknown] at old
      simp [sameKey,Ne.symm sameKey,old]
    · simp [same,sameKey,old]

theorem insert_aside (outside : ¬ P key) (unknown : right.find value = none) : InverseOn P left (right.insert value key) := by
  intro other found matters
  have differs : key ≠ other := by intro same; exact outside (same ▸ matters)
  rw [inverse other found matters]
  by_cases same : found = value
  · simp [same,unknown,differs]
  · simp [same]

theorem erase (filed : right.find value = some key) : InverseOn P (left.erase key) (right.erase value) := by
  intro other found matters
  have old := inverse other found matters
  by_cases sameKey : other = key
  · subst sameKey
    have kept := (inverse other value matters).mpr filed
    by_cases same : found = value
    · simp [same]
    · have gone : ¬ right.find found = some other := by
        rw [← old,kept]
        simpa using Ne.symm same
      simp [same,gone]
  · by_cases same : found = value
    · subst same
      rw [filed] at old
      simp [sameKey,old,Ne.symm sameKey]
    · simp [same,sameKey,old]

theorem erase_aside (outside : ¬ P key) (filed : right.find value = some key) : InverseOn P left (right.erase value) := by
  intro other found matters
  have differs : key ≠ other := by intro same; exact outside (same ▸ matters)
  rw [inverse other found matters]
  by_cases same : found = value
  · simp [same,filed,differs]
  · simp [same]

end

end InverseOn

-- A map of sets: for each group the members filed under it.
abbrev Grouped (κ ι : Type) [LinearOrder κ] [LinearOrder ι] := OrderedMap κ (OrderedMap ι Unit)

namespace Grouped

def Holds (groups : Grouped κ ι) (group : κ) (item : ι) : Prop :=
  ((groups.find group).bind (·.find item)).isSome = true

instance (groups : Grouped κ ι) (group : κ) (item : ι) : Decidable (Holds groups group item) :=
  inferInstanceAs (Decidable (_ = true))

def add (groups : Grouped κ ι) (group : κ) (item : ι) : Grouped κ ι :=
  groups.insert group (((groups.find group).getD .empty).insert item ())

def drop (groups : Grouped κ ι) (group : κ) (item : ι) : Grouped κ ι :=
  groups.insert group (((groups.find group).getD .empty).erase item)

def pairs (groups : Grouped κ ι) : List (κ × ι) :=
  groups.entries.flatMap (fun row => row.2.entries.map (fun item => (row.1,item.1)))

@[simp] theorem holds_empty {group : κ} {item : ι} : ¬ Holds (.empty : Grouped κ ι) group item := by
  simp [Holds]

@[simp] theorem holds_add {groups : Grouped κ ι} {group other : κ} {item item' : ι} :
    Holds (groups.add group item) other item' ↔ (other = group ∧ item' = item) ∨ Holds groups other item' := by
  unfold Holds add
  by_cases same : other = group
  · subst same
    by_cases equal : item' = item
    · simp [equal]
    · cases found : groups.find other <;> simp [equal]
  · simp [same]

@[simp] theorem holds_drop {groups : Grouped κ ι} {group other : κ} {item item' : ι} :
    Holds (groups.drop group item) other item' ↔ ¬ (other = group ∧ item' = item) ∧ Holds groups other item' := by
  unfold Holds drop
  by_cases same : other = group
  · subst same
    by_cases equal : item' = item
    · simp [equal]
    · cases found : groups.find other <;> simp [equal]
  · simp [same]

theorem add_held {groups : Grouped κ ι} (held : Holds groups group item) : groups.add group item = groups := by
  unfold Holds at held
  cases found : groups.find group with
  | none => simp [found] at held
  | some members =>
    simp only [found,Option.bind_some] at held
    obtain ⟨mark,present⟩ := Option.isSome_iff_exists.mp held
    rw [add,found,Option.getD_some,OrderedMap.insert_found present]
    exact OrderedMap.insert_found found

theorem mem_pairs (groups : Grouped κ ι) : (group,item) ∈ groups.pairs ↔ Holds groups group item := by
  simp only [pairs,mem_flatMap,mem_map,Prod.mk.injEq]
  constructor
  · rintro ⟨row,present,member,inside,rfl,rfl⟩
    have found := (OrderedMap.find_mem row groups).mpr present
    have held := (OrderedMap.find_mem member row.2).mpr inside
    simp [Holds,found,held]
  · intro held
    unfold Holds at held
    cases found : groups.find group with
    | none => simp [found] at held
    | some members =>
      simp only [found,Option.bind_some] at held
      obtain ⟨mark,present⟩ := Option.isSome_iff_exists.mp held
      exact ⟨(group,members),(OrderedMap.find_mem _ _).mp found,(item,mark),
        (OrderedMap.find_mem _ _).mp present,rfl,rfl⟩

theorem pairs_nodup {groups : Grouped κ ι} : groups.pairs.Nodup := by
  refine nodup_flatMap.mpr ⟨?_,?_⟩
  · intro row _
    have members := row.2.keys_nodup.map (Prod.mk_right_injective row.1)
    simpa [map_map,Function.comp_def] using members
  · refine groups.sorted.imp ?_
    intro one two below pair inOne inTwo
    obtain ⟨_,_,rfl⟩ := mem_map.mp inOne
    obtain ⟨_,_,same⟩ := mem_map.mp inTwo
    exact absurd (congrArg Prod.fst same).symm (ne_of_lt below)

end Grouped

end OrderedMaps
