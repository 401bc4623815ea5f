import CommonTools.Library.Programs

namespace Credentials
open Programs List

variable {ε σ α β κ : Type}

-- Programs that act with what they hold, and come by more of it. What is held in a
-- state is said by Holds; an exception leaves its program with what it had before.
def GainsFrom (Holds : List κ → σ → Prop) (own : List κ) (act : EStateM ε σ α) (gain : α → List κ) (s : σ) : Prop :=
  Ends act s (fun value => Holds (own ++ gain value)) (Holds own)

def Gains (Holds : List κ → σ → Prop) (own : List κ) (act : EStateM ε σ α) (gain : α → List κ) : Prop :=
  ∀ s, Holds own s → GainsFrom Holds own act gain s

def Keeps (Holds : List κ → σ → Prop) (own : List κ) (act : EStateM ε σ α) : Prop := Gains Holds own act fun _ => []

section Results
variable {Holds : List κ → σ → Prop} {own : List κ} {act : EStateM ε σ α} {gain : α → List κ} {s : σ}

theorem from_ok (gains : GainsFrom Holds own act gain s) (done : act s = .ok value t) : Holds (own ++ gain value) t := by
  rwa [GainsFrom,Ends,done] at gains

theorem from_error (gains : GainsFrom Holds own act gain s) (failed : act s = .error message t) : Holds own t := ends_error gains failed

theorem from_of (done : ∀ value t, act s = .ok value t → Holds (own ++ gain value) t)
    (failed : ∀ message t, act s = .error message t → Holds own t) : GainsFrom Holds own act gain s :=
  ends_of done failed

theorem gains_ok (gains : Gains Holds own act gain) (held : Holds own s) (done : act s = .ok value t) :
    Holds (own ++ gain value) t := from_ok (gains s held) done

theorem gains_error (gains : Gains Holds own act gain) (held : Holds own s) (failed : act s = .error message t) :
    Holds own t := from_error (gains s held) failed

theorem keeps_after (keeps : GainsFrom Holds own act (fun _ => []) s) : Holds own (after (act s)) := by
  cases ended : act s with
  | ok value t => simpa using from_ok keeps ended
  | error message t => exact from_error keeps ended

end Results

section Plain
variable {Holds : List κ → σ → Prop} {own : List κ} {gain : α → List κ}

theorem gains_throw : Gains Holds own (throw message : EStateM ε σ α) gain := fun _ held => held

theorem gains_modify (keeps : ∀ s, Holds own s → Holds own (update s)) : Keeps Holds own (modify update : EStateM ε σ PUnit) := by
  intro s held
  change Holds (own ++ []) (update s)
  rw [append_nil]
  exact keeps s held

theorem from_catch {handler : ε → EStateM ε σ α} (first : GainsFrom Holds own act gain s)
    (rest : ∀ message t, act s = .error message t → Holds own t → GainsFrom Holds own (handler message) gain t) :
    GainsFrom Holds own (tryCatch act handler) gain s := by
  cases ended : act s with
  | ok value t => rw [GainsFrom,Ends,catch_ok ended]; exact from_ok first ended
  | error message t => rw [GainsFrom,Ends,catch_error ended]; exact rest message t ended (from_error first ended)

theorem gains_catch {handler : ε → EStateM ε σ α} (first : Gains Holds own act gain)
    (rest : ∀ message, Gains Holds own (handler message) gain) : Gains Holds own (tryCatch act handler) gain :=
  fun s held => from_catch (first s held) fun message t _ kept => rest message t kept

end Plain

class Weakens (Holds : List κ → σ → Prop) : Prop where
  weakens : ∀ few many s, few ⊆ many → Holds many s → Holds few s

section Rules
open Weakens
variable {Holds : List κ → σ → Prop} [Weakens Holds] {own : List κ} {gain : α → List κ} {gain' : β → List κ}

theorem gains_pure (inside : gain value ⊆ own) : Gains Holds own (pure value : EStateM ε σ α) gain :=
  fun _ held => weakens _ _ _ (append_subset.mpr ⟨List.Subset.refl own,inside⟩) held

theorem keeps_pure : Keeps Holds own (pure value : EStateM ε σ α) := gains_pure (nil_subset own)

theorem gains_get : Keeps Holds own (get : EStateM ε σ σ) :=
  fun _ held => weakens _ _ _ (append_subset.mpr ⟨List.Subset.refl own,nil_subset own⟩) held

theorem from_less (inside : own ⊆ more) (gains : GainsFrom Holds more act gain s) : GainsFrom Holds own act gain s := by
  refine from_of (fun value t done => ?_) fun message t failed => weakens _ _ _ inside (from_error gains failed)
  refine weakens _ _ _ (append_subset.mpr ⟨?_,subset_append_right _ _⟩) (from_ok gains done)
  exact subset_append_of_subset_left _ inside

theorem gains_less (gains : Gains Holds own act gain) (inside : ∀ value, less value ⊆ own ++ gain value) : Gains Holds own act less := by
  refine fun s held => from_of (fun value t done => ?_) fun message t failed => gains_error gains held failed
  exact weakens _ _ _ (append_subset.mpr ⟨subset_append_left _ _,inside value⟩) (gains_ok gains held done)

theorem from_bind (first : GainsFrom Holds own act gain s)
    (rest : ∀ value t, act s = .ok value t → Holds (own ++ gain value) t → GainsFrom Holds (own ++ gain value) (follow value) gain' t) :
    GainsFrom Holds own (act >>= follow) gain' s := by
  refine from_of (fun result t done => ?_) fun message t failed => ?_
  · obtain ⟨value,middle,one,two⟩ := bind_ok.mp done
    have more := from_ok (rest value middle one (from_ok first one)) two
    exact weakens _ _ _ (append_subset.mpr ⟨by simp,by simp⟩) more
  · rcases bind_error.mp failed with one | ⟨value,middle,one,two⟩
    · exact from_error first one
    · exact weakens _ _ _ (subset_append_left _ _) (from_error (rest value middle one (from_ok first one)) two)

theorem gains_bind (first : Gains Holds own act gain) (rest : ∀ value, Gains Holds (own ++ gain value) (follow value) gain') :
    Gains Holds own (act >>= follow) gain' :=
  fun s held => from_bind (first s held) fun value t _ more => rest value t more

theorem keeps_bind (first : Keeps Holds own act)
    (rest : ∀ value, Gains Holds own (follow value) gain') : Gains Holds own (act >>= follow) gain' :=
  gains_bind first fun value => by simpa using rest value

theorem keeps_forM {act : α → EStateM ε σ PUnit} {items : List α}
    (each : ∀ item ∈ items, Keeps Holds own (act item)) : Keeps Holds own (items.forM act) := by
  induction items with
  | nil => exact gains_pure (nil_subset own)
  | cons item rest ih => exact keeps_bind (each item mem_cons_self) fun _ => ih fun other later => each other (mem_cons_of_mem _ later)

end Rules

end Credentials
