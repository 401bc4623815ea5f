import CommonTools.Backend.StartOrder

namespace CommonTools.Backend
open Transfer Programs List

structure Attempt where
  session : Nat
  args : List DaemonArg
  deriving DecidableEq

abbrev CleanupM := EStateM String (List Attempt)

section Finalizing
variable (app : App) (answers : Nat → Option String)

-- Session::finalize. startDaemon's exception is logged and thrown on.
def finalizeSession (entry : World × Nat) : CleanupM Unit :=
  match finalizeArgs app entry.1.session with
  | none => pure ()
  | some args => do
    modify (· ++ [⟨entry.2,args⟩])
    match answers entry.2 with
    | none => pure ()
    | some message => throw message

-- App::finalize, in whatever order the set has its sessions.
def finalizeApp (sessions : List World) : CleanupM Unit := sessions.zipIdx.forM (finalizeSession app answers)

-- Frontend::removeApp, as far as the nodes are concerned.
def removeApp (sessions : List World) : CleanupM Unit := tryCatch (finalizeApp app answers sessions) fun _ => pure ()

def attempts (sessions : List World) : List Attempt := after (removeApp app answers sessions [])

end Finalizing

def Wanted (w : World) : Prop := w.session.seqNum ≠ 0

instance (w : World) : Decidable (Wanted w) := inferInstanceAs (Decidable (_ ≠ _))

section Attempts
variable {app : App} {answers : Nat → Option String} {sessions : List World}

theorem finalizeArgs_wanted (app : App) (w : World) : (finalizeArgs app w.session).isSome = true ↔ Wanted w := by
  unfold finalizeArgs Wanted
  split <;> simp [*]

theorem removeApp_attempts : attempts app answers sessions = after (finalizeApp app answers sessions []) := by
  unfold attempts removeApp
  cases ended : finalizeApp app answers sessions [] with
  | ok value made => rw [catch_ok ended]
  | error message made => rw [catch_error ended]; rfl

-- The sessions that are reached, from one place on: each that wants a clean-up, up
-- to and with the first whose clean-up fails.
def reached (answers : Nat → Option String) : List (World × Nat) → List Nat
  | [] => []
  | entry :: rest =>
    if Wanted entry.1 then
      match answers entry.2 with
      | none => entry.2 :: reached answers rest
      | some _ => [entry.2]
    else reached answers rest

theorem forM_attempts (entries : List (World × Nat)) (made : List Attempt) :
    (after (entries.forM (finalizeSession app answers) made)).map Attempt.session = made.map Attempt.session ++ reached answers entries := by
  induction entries generalizing made with
  | nil => simp [reached]; rfl
  | cons entry rest ih =>
    change (after ((finalizeSession app answers entry >>= fun _ => rest.forM (finalizeSession app answers)) made)).map _ = _
    unfold reached
    cases wanted : finalizeArgs app entry.1.session with
    | none =>
      have none : ¬ Wanted entry.1 := fun wrong => by
        have present := (finalizeArgs_wanted app entry.1).mpr wrong
        rw [wanted] at present
        cases present
      have done : finalizeSession app answers entry made = .ok () made := by rw [finalizeSession,wanted]; rfl
      rw [bind_after done,if_neg none]
      exact ih made
    | some args =>
      have wants : Wanted entry.1 := (finalizeArgs_wanted app entry.1).mp (by rw [wanted]; rfl)
      rw [if_pos wants]
      cases answer : answers entry.2 with
      | none =>
        have done : finalizeSession app answers entry made = .ok () (made ++ [⟨entry.2,args⟩]) := by
          simp only [finalizeSession,wanted,answer]
          rfl
        rw [bind_after done,ih]
        simp
      | some message =>
        have failed : finalizeSession app answers entry made = .error message (made ++ [⟨entry.2,args⟩]) := by
          simp only [finalizeSession,wanted,answer]
          rfl
        rw [bind_stopped failed]
        simp

theorem attempts_reached : (attempts app answers sessions).map Attempt.session = reached answers sessions.zipIdx := by
  rw [removeApp_attempts,finalizeApp,forM_attempts]
  rfl

def Clear (answers : Nat → Option String) (sessions : List World) (i : Nat) : Prop :=
  ∀ j < i, ∀ w, sessions[j]? = some w → Wanted w → answers j = none

theorem clear_succ :
    Clear answers (first :: rest) (i + 1) ↔ (Wanted first → answers 0 = none) ∧ Clear (fun j => answers (j + 1)) rest i := by
  constructor
  · intro clear
    exact ⟨fun wants => clear 0 (Nat.succ_pos i) first rfl wants,fun j below w found => clear (j + 1) (Nat.succ_lt_succ below) w found⟩
  · rintro ⟨zero,later⟩ j below w found wants
    cases j with
    | zero => cases found; exact zero wants
    | succ j => exact later j (Nat.lt_of_succ_lt_succ below) w found wants

theorem reached_sublist : (reached answers entries).Sublist (entries.map Prod.snd) := by
  induction entries with
  | nil => exact .slnil
  | cons entry rest ih =>
    unfold reached
    split
    · split
      · exact ih.cons_cons _
      · exact (nil_sublist _).cons_cons _
    · exact ih.cons _

theorem mem_reached (answers : Nat → Option String) (sessions : List World) (offset i : Nat) :
    i + offset ∈ reached answers (sessions.zipIdx offset) ↔
      (∃ w, sessions[i]? = some w ∧ Wanted w) ∧ Clear (fun j => answers (j + offset)) sessions i := by
  induction sessions generalizing offset i with
  | nil => simp [reached]
  | cons first rest ih =>
    rw [zipIdx_cons]
    unfold reached
    cases i with
    | zero =>
      have later : offset ∉ reached answers (rest.zipIdx (offset + 1)) := by
        intro inside
        have listed := reached_sublist.subset inside
        rw [zipIdx_map_snd] at listed
        have above := (mem_range'_1.mp listed).1
        omega
      have clear : Clear (fun j => answers (j + offset)) (first :: rest) 0 := fun j below => absurd below (Nat.not_lt_zero j)
      by_cases wants : Wanted first
      · cases answers offset <;> simp [wants,clear]
      · simpa [wants,clear] using later
    | succ i =>
      have later := ih (offset + 1) i
      have place : i + 1 + offset = i + (offset + 1) := by omega
      have apart : i + (offset + 1) ≠ offset := by omega
      have shift : (fun j => answers (j + 1 + offset)) = fun j => answers (j + (offset + 1)) := by
        funext j
        congr 1
        omega
      rw [clear_succ,shift,place]
      by_cases wants : Wanted first
      · cases answer : answers offset with
        | none => simp [wants,answer,apart,later]
        | some message => simp [wants,answer,apart]
      · simp [wants,later]

theorem attempted_iff : i ∈ (attempts app answers sessions).map Attempt.session ↔
      (∃ w, sessions[i]? = some w ∧ Wanted w) ∧ Clear answers sessions i := by
  rw [attempts_reached]
  exact mem_reached answers sessions 0 i

theorem attempts_nodup : ((attempts app answers sessions).map Attempt.session).Nodup := by
  rw [attempts_reached]
  refine reached_sublist.nodup ?_
  rw [zipIdx_map_snd]
  exact nodup_range'

end Attempts

structure History where
  stageName : String
  wlmType : String
  calls : List Call

def History.world (host : Host) (app : App) (history : History) : World :=
  runSession host app history.stageName history.wlmType history.calls

section Histories
variable {host : Host} {app : App} {w w' : World}

theorem outcome_shipped (shipped : w.starts ≠ [] → w.packages ≠ [])
    (outcome : Outcome host w mani calls delivery Args synchronous returned w') : w'.starts ≠ [] → w'.packages ≠ [] := by
  cases outcome with
  | refused _ | emptied _ _ _ _ | unadded _ _ | unmerged _ _ _ | undelivered _ _ _ => exact shipped
  | unstarted _ _ _ => exact fun _ => by simp [World.delivered]
  | started _ _ _ _ => exact fun _ => by simp [World.started,World.delivered]

theorem next_shipped (host : Host) (app : App) (w : World) (call : Call) (shipped : w.starts ≠ [] → w.packages ≠ []) :
    (call.next host app w).starts ≠ [] → (call.next host app w).packages ≠ [] := by
  have moved := Transfer.next_moves host app w call
  generalize call.next host app w = w' at moved
  cases moved with
  | created | absent _ | added _ => exact shipped
  | sent outcome | ran outcome => exact outcome_shipped shipped outcome

theorem history_shipped {history : History} : (history.world host app).starts ≠ [] → (history.world host app).packages ≠ [] :=
  reached_invariant (fun wrong => absurd rfl wrong)
    (fun w call shipped _ => next_shipped host app w call shipped) (reached_free _ _ history.calls)

theorem history_wanted {history : History} : Wanted (history.world host app) ↔ (history.world host app).starts ≠ [] := by
  have counted := run_counted host app history.stageName history.wlmType history.calls
  unfold Wanted History.world
  rw [counted.count]
  simp

end Histories

def Covers (attempts : List Attempt) (sessions : List World) : Prop :=
  ∀ i w, sessions[i]? = some w → w.packages ≠ [] → (attempts.map Attempt.session).count i = 1

-- A session that has shipped has also started a daemon, and no session before it
-- that has started one sees its clean-up fail.
def Reachable (answers : Nat → Option String) (sessions : List World) : Prop :=
  ∀ i w, sessions[i]? = some w → w.packages ≠ [] →
    w.starts ≠ [] ∧ ∀ j < i, ∀ v, sessions[j]? = some v → v.starts ≠ [] → answers j = none

theorem cleanups_exact (host : Host) (app : App) (answers : Nat → Option String) (histories : List History) :
    (Covers (attempts app answers (histories.map (History.world host app))) (histories.map (History.world host app)) ↔
      Reachable answers (histories.map (History.world host app))) ∧
    ∀ i ∈ (attempts app answers (histories.map (History.world host app))).map Attempt.session,
      ∃ w, (histories.map (History.world host app))[i]? = some w ∧ w.packages ≠ [] := by
  have started : ∀ {i : Nat} {w : World}, (histories.map (History.world host app))[i]? = some w →
      (Wanted w ↔ w.starts ≠ []) ∧ (w.starts ≠ [] → w.packages ≠ []) := by
    intro i w found
    rw [getElem?_map] at found
    obtain ⟨history,_,rfl⟩ := Option.map_eq_some_iff.mp found
    exact ⟨history_wanted,history_shipped⟩
  generalize histories.map (History.world host app) = sessions at started
  refine ⟨forall_congr' fun i => forall_congr' fun w => forall_congr' fun found => forall_congr' fun shipped => ?_,fun i asked => ?_⟩
  · have once : ((attempts app answers sessions).map Attempt.session).count i = 1 ↔ i ∈ (attempts app answers sessions).map Attempt.session := by
      constructor
      · intro one
        exact count_pos_iff.mp (by omega)
      · exact count_eq_one_of_mem attempts_nodup
    rw [once,attempted_iff]
    refine and_congr ?_ ?_
    · rw [found]
      simpa using (started found).1
    · exact forall_congr' fun j => forall_congr' fun _ => forall_congr' fun v => forall_congr' fun there => by rw [(started there).1]
  · obtain ⟨⟨w,found,wanted⟩,_⟩ := attempted_iff.mp asked
    exact ⟨w,found,(started found).2 ((started found).1.mp wanted)⟩

def shipsOne (delivery : Delivery) : History := ⟨"cti_daemon","wlm",[.createManifest,.add 0 (.file "/a/x"),.sendManifest delivery 0]⟩

def unstarted : World := (shipsOne {plainDelivery with startDaemon := some "srun failed"}).world (plainHost fun _ => none) plainApp

def shipped : World := (shipsOne plainDelivery).world (plainHost fun _ => none) plainApp

theorem uncovered {attempts : List Attempt} {sessions : List World} (i : Nat)
    (missed : (sessions[i]?).any (fun w => !w.packages.isEmpty) = true ∧ i ∉ attempts.map Attempt.session) : ¬ Covers attempts sessions := by
  intro covers
  obtain ⟨w,found,sent⟩ := (Option.any_eq_true _ _).mp missed.1
  have once := covers i w found (by simpa using sent)
  rw [count_eq_zero.mpr missed.2] at once
  cases once

theorem sessions_left_behind :
    ¬ Covers (attempts plainApp (fun i => if i = 0 then some "node down" else none) [shipped,shipped]) [shipped,shipped] ∧
      ¬ Covers (attempts plainApp (fun _ => none) [unstarted]) [unstarted] :=
  ⟨uncovered 1 (by decide),uncovered 0 (by decide)⟩

end CommonTools.Backend
