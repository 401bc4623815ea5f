import Mathlib.Tactic.Common

namespace Programs

variable {ε σ α β : Type}

def after (result : EStateM.Result ε σ α) : σ :=
  match result with
  | .ok _ s => s
  | .error _ s => s

def Returned (result : EStateM.Result ε σ α) : Prop :=
  match result with
  | .ok _ _ => True
  | .error _ _ => False

instance (result : EStateM.Result ε σ α) : Decidable (Returned result) := by
  unfold Returned
  cases result <;> infer_instance

@[simp] theorem after_ok (value : α) (s : σ) : after (.ok value s : EStateM.Result ε σ α) = s := rfl
@[simp] theorem after_error (message : ε) (s : σ) : after (.error message s : EStateM.Result ε σ α) = s := rfl

section Inversion
variable {act : EStateM ε σ α} {next : α → EStateM ε σ β}

theorem bind_ok : (act >>= next) s = .ok result t ↔ ∃ value middle, act s = .ok value middle ∧ next value middle = .ok result t := by
  change EStateM.bind act next s = _ ↔ _
  unfold EStateM.bind
  cases first : act s with
  | ok value middle =>
    constructor
    · intro rest; exact ⟨value,middle,rfl,rest⟩
    · rintro ⟨_,_,same,rest⟩; cases same; exact rest
  | error message middle =>
    constructor
    · intro wrong; cases wrong
    · rintro ⟨_,_,same,_⟩; cases same

theorem bind_error : (act >>= next) s = .error message t ↔
    act s = .error message t ∨ ∃ value middle, act s = .ok value middle ∧ next value middle = .error message t := by
  change EStateM.bind act next s = _ ↔ _
  unfold EStateM.bind
  cases first : act s with
  | ok value middle =>
    constructor
    · intro rest; exact .inr ⟨value,middle,rfl,rest⟩
    · rintro (wrong | ⟨_,_,same,rest⟩)
      · cases wrong
      · cases same; exact rest
  | error other middle =>
    constructor
    · intro same; cases same; exact .inl rfl
    · rintro (same | ⟨_,_,wrong,_⟩)
      · cases same; rfl
      · cases wrong

theorem bind_after (done : act s = .ok value t) : (act >>= next) s = next value t := by
  change EStateM.bind act next s = _
  unfold EStateM.bind
  rw [done]

theorem get_after {k : σ → EStateM ε σ α} : (get >>= k) s = k s s := rfl

theorem modify_after {f : σ → σ} {k : PUnit → EStateM ε σ α} : (modify f >>= k) s = k ⟨⟩ (f s) := rfl

theorem bind_stopped (failed : act s = .error message t) : (act >>= next) s = .error message t := bind_error.mpr (.inl failed)

theorem map_error {f : α → β} : (∃ e t, (act >>= fun value => pure (f value)) s = .error e t) ↔ ∃ e t, act s = .error e t := by
  change (∃ e t, EStateM.bind act _ s = .error e t) ↔ _
  unfold EStateM.bind
  cases act s with
  | ok value t =>
    constructor
    · intro ⟨_,_,wrong⟩; cases wrong
    · intro ⟨_,_,wrong⟩; cases wrong
  | error e t => simp

theorem catch_ok (done : act s = .ok value t) : tryCatch act handler s = .ok value t := by
  change EStateM.tryCatch act handler s = _
  rw [EStateM.tryCatch,done]

theorem catch_error (failed : act s = .error message t) : tryCatch act handler s = handler message t := by
  change EStateM.tryCatch act handler s = _
  rw [EStateM.tryCatch,failed]
  rfl

end Inversion

theorem after_map {act : EStateM ε σ α} {f : α → β} {s : σ} : after ((act >>= fun value => pure (f value)) s) = after (act s) := by
  change after (EStateM.bind act _ s) = _
  unfold EStateM.bind
  cases act s <;> rfl

-- Programs that only test and throw leave the state where it was.
def Silent (act : EStateM ε σ α) : Prop := ∀ s, after (act s) = s

theorem silent_ok (silent : Silent act) (done : act s = .ok value t) : t = s := by
  have same := silent s; rwa [done] at same

theorem silent_error (silent : Silent act) (failed : act s = .error message t) : t = s := by
  have same := silent s; rwa [failed] at same

theorem silent_bind (first : Silent act) (rest : ∀ value, Silent (next value)) : Silent (act >>= next) := by
  intro s
  cases ended : (act >>= next) s with
  | ok result t =>
    obtain ⟨value,middle,one,two⟩ := bind_ok.mp ended
    exact (silent_ok (rest value) two).trans (silent_ok first one)
  | error message t =>
    rcases bind_error.mp ended with one | ⟨value,middle,one,two⟩
    · exact silent_error first one
    · exact (silent_error (rest value) two).trans (silent_ok first one)

theorem silent_forM (each : ∀ item, Silent (act item)) {items : List α} : Silent (items.forM act) := by
  induction items with
  | nil => intro s; rfl
  | cons item rest ih => exact silent_bind (each item) fun _ => ih

-- How a program ends from one state, with a result or with an exception.
def Ends (act : EStateM ε σ α) (s : σ) (done : α → σ → Prop) (failed : σ → Prop) : Prop :=
  match act s with
  | .ok value t => done value t
  | .error _ t => failed t

section Endings
variable {act : EStateM ε σ α} {next : α → EStateM ε σ β} {s : σ} {done done' : α → σ → Prop} {failed failed' : σ → Prop}

theorem ends_of (ok : ∀ value t, act s = .ok value t → done value t) (error : ∀ message t, act s = .error message t → failed t) :
    Ends act s done failed := by
  unfold Ends
  cases ended : act s with
  | ok value t => exact ok value t ended
  | error message t => exact error message t ended

theorem ends_ok (ends : Ends act s done failed) (ok : act s = .ok value t) : done value t := by
  rwa [Ends,ok] at ends

theorem ends_error (ends : Ends act s done failed) (error : act s = .error message t) : failed t := by
  rwa [Ends,error] at ends

theorem ends_bind (first : Ends act s done failed)
    (rest : ∀ value t, done value t → Ends (next value) t result failed) : Ends (act >>= next) s result failed := by
  refine ends_of (fun value t ok => ?_) fun message t error => ?_
  · obtain ⟨middle,u,one,two⟩ := bind_ok.mp ok
    exact ends_ok (rest middle u (ends_ok first one)) two
  · rcases bind_error.mp error with one | ⟨middle,u,one,two⟩
    · exact ends_error first one
    · exact ends_error (rest middle u (ends_ok first one)) two

theorem ends_imp (ends : Ends act s done failed) (ok : ∀ value t, done value t → done' value t) (error : ∀ t, failed t → failed' t) :
    Ends act s done' failed' :=
  ends_of (fun value t returned => ok value t (ends_ok ends returned)) fun _ t threw => error t (ends_error ends threw)

theorem ends_exact (returned : act s = .ok value t) (ok : done value t) : Ends act s done failed := by
  rwa [Ends,returned]

theorem ends_catch (first : Ends act s done failed)
    (rest : ∀ message t, failed t → Ends (handler message) t done failed') : Ends (tryCatch act handler) s done failed' := by
  cases ended : act s with
  | ok value t => exact ends_exact (catch_ok ended) (ends_ok first ended)
  | error message t =>
    rw [Ends,catch_error ended]
    exact rest message t (ends_error first ended)

theorem ends_after (ends : Ends act s (fun _ => P) P) : P (after (act s)) := by
  cases ended : act s with
  | ok value t => exact ends_ok ends ended
  | error message t => exact ends_error ends ended

end Endings

-- Runs of a machine whose every step is admitted where it is taken.
inductive Reached (Admits : σ → α → Prop) (next : σ → α → σ) (start : σ) : List α → σ → Prop where
  | start : Reached Admits next start [] start
  | step : Reached Admits next start calls s → Admits s call →
      Reached Admits next start (calls ++ [call]) (next s call)

section Runs
variable {Admits : σ → α → Prop} {next : σ → α → σ} {start : σ}

theorem reached_invariant {Inv : σ → Prop} (initial : Inv start) (preserved : ∀ s call, Inv s → Admits s call → Inv (next s call))
    (path : Reached Admits next start calls s) : Inv s := by
  induction path with
  | start => exact initial
  | step _ admitted ih => exact preserved _ _ ih admitted

def AdmittedAlong (Admits : σ → α → Prop) (next : σ → α → σ) (s : σ) : List α → Prop
  | [] => True
  | call :: rest => Admits s call ∧ AdmittedAlong Admits next (next s call) rest

instance decidableAlong [∀ s call, Decidable (Admits s call)] (s : σ) (calls : List α) :
    Decidable (AdmittedAlong Admits next s calls) :=
  match calls with
  | [] => .isTrue trivial
  | call :: rest =>
    have := decidableAlong (next s call) rest
    inferInstanceAs (Decidable (Admits s call ∧ AdmittedAlong Admits next (next s call) rest))

theorem reached_onward (path : Reached Admits next start earlier s) (along : AdmittedAlong Admits next s calls) :
    Reached Admits next start (earlier ++ calls) (calls.foldl next s) := by
  induction calls generalizing earlier s with
  | nil => simpa using path
  | cons call rest ih =>
    have onward := ih (.step path along.1) along.2
    simpa [List.append_assoc] using onward

theorem reached_run (along : AdmittedAlong Admits next start calls) : Reached Admits next start calls (calls.foldl next start) := by
  simpa using reached_onward .start along

theorem reached_free (next : σ → α → σ) (start : σ) (calls : List α) :
    Reached (fun _ _ => True) next start calls (calls.foldl next start) := by
  apply reached_run
  induction calls generalizing start with
  | nil => trivial
  | cons call rest ih => exact ⟨trivial,ih _⟩

end Runs

end Programs
