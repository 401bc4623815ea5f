import Mathlib.Tactic.Common

namespace Plans
open List

-- A program whose reads are settled beforehand: the updates it makes, in order,
-- and how it ends. The updates made before a throw stay made.
structure Plan (ε α : Type) where
  effects : List ε
  outcome : Except String α

variable {σ ε α β : Type}

namespace Plan

def pure (value : α) : Plan ε α := ⟨[],.ok value⟩

def fail (message : String) : Plan ε α := ⟨[],.error message⟩

def emit (effect : ε) : Plan ε Unit := ⟨[effect],.ok ()⟩

def bind (first : Plan ε α) (more : α → Plan ε β) : Plan ε β :=
  match first.outcome with
  | .error message => ⟨first.effects,.error message⟩
  | .ok value => ⟨first.effects ++ (more value).effects,(more value).outcome⟩

def catching (first : Plan ε α) (handler : String → Plan ε α) : Plan ε α :=
  match first.outcome with
  | .ok _ => first
  | .error message => ⟨first.effects ++ (handler message).effects,(handler message).outcome⟩

instance : Monad (Plan ε) where
  pure := Plan.pure
  bind := Plan.bind

def each (step : α → Plan ε β) : List α → Plan ε (List β)
  | [] => .pure []
  | item :: rest => (step item).bind fun value => (each step rest).bind fun values => .pure (value :: values)

def done (step : α → Plan ε β) : List α → List β
  | [] => []
  | item :: rest => match (step item).outcome with
    | .ok value => value :: done step rest
    | .error _ => []

def run (apply : σ → ε → σ) (plan : Plan ε α) (s : σ) : EStateM.Result String σ α :=
  match plan.outcome with
  | .ok value => .ok value (plan.effects.foldl apply s)
  | .error message => .error message (plan.effects.foldl apply s)

end Plan

-- The state-passing program does what the plan says from every state in which
-- the reads come out as the plan assumed.
def Follows (apply : σ → ε → σ) (Settled : σ → Prop) (act : EStateM String σ α) (plan : Plan ε α) : Prop :=
  ∀ s, Settled s → act s = plan.run apply s

section Rules
variable {apply : σ → ε → σ} {Settled : σ → Prop}

theorem effects_keep (keeps : ∀ s e, Settled s → Settled (apply s e)) {effects : List ε} (settled : Settled s) :
    Settled (effects.foldl apply s) := by
  induction effects generalizing s with
  | nil => exact settled
  | cons effect rest ih => exact ih (keeps _ _ settled)

theorem follows_pure (value : α) : Follows apply Settled (Pure.pure value) (Plan.pure value) := fun _ _ => rfl

theorem follows_throw : Follows apply Settled (throw message : EStateM String σ α) (Plan.fail message) := fun _ _ => rfl

theorem follows_modify (same : ∀ s, Settled s → change s = apply s effect) :
    Follows apply Settled (modify change : EStateM String σ PUnit) (Plan.emit effect) := by
  intro s settled
  change EStateM.Result.ok PUnit.unit (change s) = _
  rw [same s settled]
  rfl

section
variable (keeps : ∀ s e, Settled s → Settled (apply s e))
include keeps

theorem follows_bind (first : Follows apply Settled act plan) (rest : ∀ value, Follows apply Settled (more value) (later value)) :
    Follows apply Settled (act >>= more) (plan.bind later) := by
  intro s settled
  change EStateM.bind act more s = _
  unfold EStateM.bind
  rw [first s settled]
  unfold Plan.run Plan.bind
  cases ended : plan.outcome with
  | error message => simp
  | ok value =>
    simp only
    rw [rest value _ (effects_keep keeps settled)]
    unfold Plan.run
    cases (later value).outcome <;> simp [foldl_append]

theorem follows_catch (first : Follows apply Settled act plan) (rest : ∀ message, Follows apply Settled (handler message) (later message)) :
    Follows apply Settled (tryCatch act handler) (plan.catching later) := by
  intro s settled
  change EStateM.tryCatch act handler s = _
  unfold EStateM.tryCatch
  rw [first s settled]
  unfold Plan.run Plan.catching
  cases ended : plan.outcome with
  | ok value => simp [ended]
  | error message =>
    change handler message (plan.effects.foldl apply s) = _
    rw [rest message _ (effects_keep keeps settled)]
    unfold Plan.run
    cases (later message).outcome <;> simp [foldl_append]

theorem follows_each (one : ∀ item, Follows apply Settled (act item) (plan item)) (items : List α) :
    Follows apply Settled (items.mapM act) (Plan.each plan items) := by
  induction items with
  | nil => exact follows_pure []
  | cons item rest ih =>
    rw [mapM_cons]
    exact follows_bind keeps (one item) fun _ => follows_bind keeps ih fun _ => follows_pure _

end

end Rules

theorem bind_ok {first : Plan ε α} {more : α → Plan ε β} (ended : (first.bind more).outcome = .ok result) :
    ∃ value, first.outcome = .ok value ∧ (more value).outcome = .ok result ∧
      (first.bind more).effects = first.effects ++ (more value).effects := by
  unfold Plan.bind at ended ⊢
  cases one : first.outcome with
  | error message => simp [one] at ended
  | ok value => exact ⟨value,rfl,by simpa [one] using ended,by simp⟩

theorem each_ok (first : (step item).outcome = .ok value) : Plan.each step (item :: rest) =
      ⟨(step item).effects ++ (Plan.each step rest).effects,(Plan.each step rest).outcome.map (value :: ·)⟩ := by
  simp only [Plan.each,Plan.bind,first]
  cases (Plan.each step rest).outcome <;> simp [Plan.pure,Except.map]

theorem each_error (first : (step item).outcome = .error message) :
    Plan.each step (item :: rest) = ⟨(step item).effects,.error message⟩ := by
  simp only [Plan.each,Plan.bind,first]

theorem done_each (ended : (Plan.each step items).outcome = .ok values) : Plan.done step items = values := by
  induction items generalizing values with
  | nil => cases ended; rfl
  | cons item rest ih =>
    cases first : (step item).outcome with
    | error message => rw [each_error first] at ended; cases ended
    | ok value =>
      rw [each_ok first] at ended
      cases later : (Plan.each step rest).outcome with
      | error message => rw [later] at ended; cases ended
      | ok others =>
        rw [later] at ended
        cases ended
        simp only [Plan.done,first,ih later]

theorem done_mem (inside : value ∈ Plan.done step items) :
    ∃ item ∈ items, (step item).outcome = .ok value ∧ (step item).effects ⊆ (Plan.each step items).effects := by
  induction items with
  | nil => cases inside
  | cons item rest ih =>
    simp only [Plan.done] at inside
    cases first : (step item).outcome with
    | error message => rw [first] at inside; cases inside
    | ok head =>
      rw [each_ok first]
      rw [first] at inside
      rcases mem_cons.mp inside with rfl | later
      · exact ⟨item,mem_cons_self,first,subset_append_left _ _⟩
      · obtain ⟨other,listed,ended,among⟩ := ih later
        exact ⟨other,mem_cons_of_mem _ listed,ended,subset_append_of_subset_right _ among⟩

structure Gathers (Good : List ε → Prop) : Prop where
  nil : Good []
  append : ∀ {one two}, Good one → Good two → Good (one ++ two)

section Gathering
variable {Good : List ε → Prop}

theorem gathers_bind (gathers : Gathers Good) {first : Plan ε α} {more : α → Plan ε β}
    (head : Good first.effects) (tail : ∀ value, Good (more value).effects) : Good (first.bind more).effects := by
  unfold Plan.bind
  cases first.outcome with
  | error message => exact head
  | ok value => exact gathers.append head (tail value)

theorem gathers_catching (gathers : Gathers Good) {first : Plan ε α} {handler : String → Plan ε α}
    (head : Good first.effects) (tail : ∀ message, Good (handler message).effects) : Good (first.catching handler).effects := by
  unfold Plan.catching
  cases first.outcome with
  | ok value => exact head
  | error message => exact gathers.append head (tail message)

theorem gathers_each (gathers : Gathers Good) {step : α → Plan ε β} (one : ∀ item, Good (step item).effects)
    (items : List α) : Good (Plan.each step items).effects := by
  induction items with
  | nil => exact gathers.nil
  | cons item rest ih => exact gathers_bind gathers (one item) fun _ => gathers_bind gathers ih fun _ => gathers.nil

theorem gathers_all {P : ε → Prop} : Gathers (fun effects : List ε => ∀ e ∈ effects, P e) where
  nil := nofun
  append := fun one two e present => (mem_append.mp present).elim (one e) (two e)

end Gathering

end Plans
