import Mathlib.Data.List.Nodup

namespace Environments
open List

abbrev Environment (κ ν : Type) : Type := κ → Option ν

section Entries
variable {κ ν : Type} [DecidableEq κ]

def first (entries : List (κ × ν)) (name : κ) : Option ν :=
  entries.findSome? fun entry => if entry.1 = name then some entry.2 else none

def last (entries : List (κ × ν)) (name : κ) : Option ν := first entries.reverse name

theorem first_append {left right : List (κ × ν)} :
    first (left ++ right) name = (first left name).or (first right name) := findSome?_append

theorem last_append {left right : List (κ × ν)} : last (left ++ right) name = (last right name).or (last left name) := by
  rw [last,reverse_append,first_append]
  rfl

section
variable {entries : List (κ × ν)}

theorem first_none {name : κ} : first entries name = none ↔ ∀ entry ∈ entries, entry.1 ≠ name := by
  simp [first]

theorem first_mem {name : κ} {value : ν} (found : first entries name = some value) : (name,value) ∈ entries := by
  obtain ⟨entry,inside,same⟩ := exists_of_findSome?_eq_some found
  split at same
  · rename_i named
    cases Option.some.inj same
    exact named ▸ inside
  · cases same

theorem first_agreed {name : κ} {value : ν} (listed : (name,value) ∈ entries)
    (agreed : ∀ entry ∈ entries, entry.1 = name → entry.2 = value) : first entries name = some value := by
  cases found : first entries name with
  | none => exact absurd rfl (first_none.mp found _ listed)
  | some other => exact congrArg some (agreed _ (first_mem found) rfl)

theorem first_unique (unique : (entries.map Prod.fst).Nodup) {name : κ} {value : ν} :
    first entries name = some value ↔ (name,value) ∈ entries := by
  refine ⟨first_mem,fun listed => first_agreed listed fun entry inside named => ?_⟩
  have same := inj_on_of_nodup_map unique inside listed named
  rw [same]

theorem last_unique (unique : (entries.map Prod.fst).Nodup) : last entries name = some value ↔ (name,value) ∈ entries := by
  have backwards : (entries.reverse.map Prod.fst).Nodup := by
    rw [map_reverse]
    exact nodup_reverse.mpr unique
  rw [last,first_unique backwards,mem_reverse]

theorem first_map {change : ν → μ} : first (entries.map fun entry => (entry.1,change entry.2)) name = (first entries name).map change := by
  induction entries with
  | nil => rfl
  | cons entry entries ih =>
    unfold first at ih ⊢
    by_cases named : entry.1 = name <;> simp [named,ih]

theorem last_map {change : ν → μ} : last (entries.map fun entry => (entry.1,change entry.2)) name = (last entries name).map change := by
  rw [last,← map_reverse,first_map]
  rfl

end

end Entries

namespace Environment
variable {κ ν : Type} [DecidableEq κ]

def put (env : Environment κ ν) (name : κ) (value : Option ν) : Environment κ ν :=
  fun asked => if asked = name then value else env asked

def set (env : Environment κ ν) (name : κ) (value : ν) : Environment κ ν := env.put name (some value)

def unset (env : Environment κ ν) (name : κ) : Environment κ ν := env.put name none

def setIf (env : Environment κ ν) (name : κ) : Option ν → Environment κ ν
  | some value => env.set name value
  | none => env

def putAll (env : Environment κ ν) (entries : List (κ × Option ν)) : Environment κ ν :=
  entries.foldl (fun env entry => env.put entry.1 entry.2) env

def setAll (env : Environment κ ν) (entries : List (κ × ν)) : Environment κ ν :=
  entries.foldl (fun env entry => env.set entry.1 entry.2) env

def unsetAll (env : Environment κ ν) (names : List κ) : Environment κ ν := names.foldl unset env

@[simp] theorem set_same (env : Environment κ ν) (name : κ) (value : ν) : env.set name value name = some value := if_pos rfl

@[simp] theorem set_other {env : Environment κ ν} {name asked : κ} {value : ν} (other : asked ≠ name) :
    env.set name value asked = env asked := if_neg other

@[simp] theorem setIf_other {env : Environment κ ν} {name asked : κ} {value : Option ν} (other : asked ≠ name) :
    env.setIf name value asked = env asked := by
  cases value with
  | none => rfl
  | some value => exact set_other other

theorem putAll_last {entries : List (κ × Option ν)} {env : Environment κ ν} :
    env.putAll entries name = (last entries name).getD (env name) := by
  unfold last
  induction entries generalizing env with
  | nil => rfl
  | cons entry entries ih =>
    have step : env.putAll (entry :: entries) = (env.put entry.1 entry.2).putAll entries := rfl
    rw [step,ih,reverse_cons,first_append]
    by_cases named : entry.1 = name
    · cases first entries.reverse name <;> simp [first,named,put]
    · have asked : name ≠ entry.1 := fun same => named same.symm
      cases first entries.reverse name <;> simp [first,named,put,asked]

theorem setAll_last {entries : List (κ × ν)} {env : Environment κ ν} : env.setAll entries name = (last entries name).or (env name) := by
  have puts : env.setAll entries = env.putAll (entries.map fun entry => (entry.1,some entry.2)) := by
    rw [putAll,foldl_map]
    rfl
  rw [puts,putAll_last,last_map]
  cases last entries name <;> rfl

theorem unsetAll_apply {env : Environment κ ν} : env.unsetAll names name = if name ∈ names then none else env name := by
  induction names generalizing env with
  | nil => rfl
  | cons first names ih =>
    have step : env.unsetAll (first :: names) = (env.unset first).unsetAll names := rfl
    rw [step,ih]
    by_cases same : name = first <;> by_cases inside : name ∈ names <;> simp [unset,put,same,inside]

end Environment

end Environments
