import Mathlib.Data.List.Induction

namespace LinkedFiles
open List
variable {α : Type} [DecidableEq α]

inductive Node (α : Type) where
  | dir
  | file
  | link (target : List α)
deriving DecidableEq

-- What lies at a place, a place being the names that lead to it from the root.
def node (files : List (List α × Node α)) (place : List α) : Option (Node α) :=
  if place = [] then some .dir else (files.find? (·.1 = place)).map Prod.snd

def listing (files : List (List α × Node α)) (place : List α) : List α :=
  files.filterMap fun entry => if entry.1.dropLast = place then entry.1.getLast? else none

def erase (files : List (List α × Node α)) (place : List α) : List (List α × Node α) :=
  files.filter (·.1 ≠ place)

inductive Walk (α : Type) where
  | arrived (place : List α)
  | redirected (path : List α)
  | lost

def walk (files : List (List α × Node α)) : (place path : List α) → Walk α
  | place,[] => .arrived place
  | place,name :: rest =>
    if node files place = some .dir then
      match node files (place ++ [name]) with
      | none => .lost
      | some (.link target) => .redirected (target ++ rest)
      | some _ => walk files (place ++ [name]) rest
    else .lost

-- Fewer links than the limit are followed, also at the end of the path.
def resolve (files : List (List α × Node α)) : (limit : Nat) → (path : List α) → Option (List α)
  | 0,_ => none
  | limit + 1,path =>
    match walk files [] path with
    | .arrived place => some place
    | .redirected path => resolve files limit path
    | .lost => none

def Shrunk (before after : List (List α × Node α)) : Prop :=
  ∀ place, node after place = none ∨ node after place = node before place

variable {files before after : List (List α × Node α)}

theorem node_erase (below : erased ≠ []) : node (erase files erased) place = if place = erased then none else node files place := by
  unfold node erase
  rw [List.find?_filter]
  split
  · rename_i root
    rw [if_neg (fun same => below (same.symm.trans root))]
  · split
    · rename_i same
      subst same
      simp
    · rename_i other
      congr 2
      funext entry
      by_cases here : entry.1 = place <;> simp [here,other]

theorem Shrunk.refl : Shrunk files files := fun _ => .inr rfl

theorem Shrunk.trans (earlier : Shrunk before files) (later : Shrunk files after) : Shrunk before after := by
  intro place
  rcases later place with gone | same
  · exact .inl gone
  · rw [same]
    exact earlier place

theorem Shrunk.erase (below : erased ≠ []) : Shrunk files (erase files erased) := by
  intro place
  rw [node_erase below]
  split
  · exact .inl rfl
  · exact .inr rfl

theorem Shrunk.gone (shrunk : Shrunk before after) (gone : node before place = none) : node after place = none :=
  (shrunk place).elim id fun same => same.trans gone

theorem Shrunk.kept (shrunk : Shrunk before after) (there : node after place = some found) : node before place = some found := by
  rcases shrunk place with gone | same
  · cases gone.symm.trans there
  · exact same.symm.trans there

theorem walk_shrunk (shrunk : Shrunk before after) : walk after place path = .lost ∨ walk after place path = walk before place path := by
  induction path generalizing place with
  | nil => exact .inr rfl
  | cons name rest ih =>
    rw [walk,walk]
    by_cases dir : node after place = some .dir
    · rw [if_pos dir,if_pos (shrunk.kept dir)]
      cases there : node after (place ++ [name]) with
      | none => exact .inl rfl
      | some found =>
        rw [shrunk.kept there]
        cases found with
        | link target => exact .inr rfl
        | dir | file => exact ih
    · exact .inl (if_neg dir)

theorem resolve_shrunk (shrunk : Shrunk before after) (found : resolve after limit path = some place) :
    resolve before limit path = some place := by
  induction limit generalizing path with
  | zero => cases found
  | succ limit ih =>
    rw [resolve] at found ⊢
    rcases walk_shrunk shrunk with lost | same
    · rw [lost] at found
      cases found
    · rw [same] at found
      cases walked : walk before [] path with
      | arrived place =>
        rwa [walked] at found
      | redirected path =>
        rw [walked] at found
        exact ih found
      | lost =>
        rw [walked] at found
        cases found

theorem walk_append (more : List α) : walk files place (path ++ more) =
    match walk files place path with
    | .arrived place => walk files place more
    | .redirected path => .redirected (path ++ more)
    | .lost => .lost := by
  induction path generalizing place with
  | nil => rfl
  | cons name rest ih =>
    rw [cons_append,walk,walk]
    split
    · cases node files (place ++ [name]) with
      | none => rfl
      | some found =>
        cases found with
        | link target => simp
        | dir | file => exact ih
    · rfl

-- What is found through a path is an entry of the directory the path leads to.
theorem resolve_entry (found : resolve files limit (path ++ [name]) = some place) :
    ∃ parent kind, resolve files limit path = some parent ∧ node files parent = some .dir ∧
      node files (parent ++ [name]) = some kind ∧ (kind = .dir → place = parent ++ [name]) := by
  induction limit generalizing path with
  | zero => cases found
  | succ limit ih =>
    rw [resolve,walk_append] at found
    rw [resolve]
    cases walked : walk files [] path with
    | lost =>
      rw [walked] at found
      cases found
    | redirected path =>
      rw [walked] at found
      exact ih found
    | arrived parent =>
      rw [walked] at found
      dsimp only at found
      rw [walk] at found
      by_cases dir : node files parent = some .dir
      · rw [if_pos dir] at found
        cases there : node files (parent ++ [name]) with
        | none =>
          rw [there] at found
          cases found
        | some kind =>
          refine ⟨parent,kind,rfl,dir,there,fun same => ?_⟩
          rw [there,same] at found
          exact (Option.some.inj found).symm
      · rw [if_neg dir] at found
        cases found

theorem resolve_front (more : List α) (found : resolve files limit (path ++ name :: more) = some place) :
    ∃ parent, resolve files limit path = some parent ∧ node files parent = some .dir := by
  induction more using reverseRecOn generalizing place with
  | nil =>
    obtain ⟨parent,_,front,dir,_⟩ := resolve_entry found
    exact ⟨parent,front,dir⟩
  | append_singleton more last ih =>
    rw [←cons_append,←append_assoc] at found
    obtain ⟨_,_,front,_⟩ := resolve_entry found
    exact ih front

theorem node_none (below : place ≠ []) (nowhere : ∀ entry ∈ files, entry.1 ≠ place) : node files place = none := by
  rw [node,if_neg below,List.find?_eq_none.mpr (fun entry listed => by simpa using nowhere entry listed)]
  rfl

theorem listing_entry (there : node files (place ++ [name]) = some kind) : name ∈ listing files place := by
  rw [node,if_neg (by simp)] at there
  cases found : files.find? (·.1 = place ++ [name]) with
  | none =>
    rw [found] at there
    cases there
  | some entry =>
    have same : entry.1 = place ++ [name] := by simpa using List.find?_some found
    exact mem_filterMap.mpr ⟨entry,mem_of_find?_eq_some found,by simp [same]⟩

end LinkedFiles
