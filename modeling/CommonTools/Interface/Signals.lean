import Mathlib.Logic.Function.Basic
import CommonTools.Library.Programs

namespace CommonTools.Interface.Signals
open Programs

-- What the process does on SIGCHLD: one of the client's dispositions, or sig_handler,
-- which does nothing.
inductive Action where
  | sigHandler
  | client (action : Nat)
  deriving DecidableEq

-- How far a thread is in runSafely. Its SigchldBlocker has an old_action when that is valid.
inductive Progress where
  | outside
  | waiting (oldAction : Option Action)
  | running (oldAction : Option Action)
  | unlocked (oldAction : Option Action)
  deriving DecidableEq

structure Process where
  action : Action
  mutex : Option Nat
  calls : Nat → Progress

-- The disposition is replaced before the mutex is taken, and put back after it has
-- been given up. sigaction may fail, which is only reported.
inductive Step where
  | construct (thread : Nat) (works : Bool)
  | lock (thread : Nat)
  | finish (thread : Nat)
  | destruct (thread : Nat) (works : Bool)

namespace Process

def start (client : Action) : Process := ⟨client,none,fun _ => .outside⟩

def enter (process : Process) (thread : Nat) (progress : Progress) : Process :=
  {process with calls := Function.update process.calls thread progress}

def construct (process : Process) (thread : Nat) (works : Bool) : Process :=
  match process.calls thread with
  | .outside =>
    if works then {process.enter thread (.waiting (some process.action)) with action := .sigHandler}
    else process.enter thread (.waiting none)
  | _ => process

def lock (process : Process) (thread : Nat) : Process :=
  match process.calls thread,process.mutex with
  | .waiting oldAction,none => {process.enter thread (.running oldAction) with mutex := some thread}
  | _,_ => process

-- The body has returned or thrown, and the lock goes first.
def finish (process : Process) (thread : Nat) : Process :=
  match process.calls thread with
  | .running oldAction => {process.enter thread (.unlocked oldAction) with mutex := none}
  | _ => process

def destruct (process : Process) (thread : Nat) (works : Bool) : Process :=
  match process.calls thread with
  | .unlocked (some oldAction) => if works then {process.enter thread .outside with action := oldAction} else process.enter thread .outside
  | .unlocked none => process.enter thread .outside
  | _ => process

def next (process : Process) : Step → Process
  | .construct thread works => process.construct thread works
  | .lock thread => process.lock thread
  | .finish thread => process.finish thread
  | .destruct thread works => process.destruct thread works

end Process

def Step.thread : Step → Nat
  | .construct thread _ | .lock thread | .finish thread | .destruct thread _ => thread

def Progress.old : Progress → Option (Option Action)
  | .outside => none
  | .waiting oldAction | .running oldAction | .unlocked oldAction => some oldAction

def Process.Quiet (process : Process) : Prop := ∀ thread, process.calls thread = .outside

structure Process.Survives (process : Process) (client : Action) : Prop where
  restored : process.Quiet → process.action = client
  masked : ∀ thread oldAction, process.calls thread = .running oldAction → process.action = .sigHandler

-- sigaction works, and who has put away something of the client's is alone when it
-- puts it back.
def Step.Orderly (process : Process) : Step → Prop
  | .construct _ works => works = true
  | .destruct thread works => works = true ∧ ∀ oldAction, process.calls thread = .unlocked (some oldAction) → oldAction ≠ .sigHandler →
    ∀ other, other ≠ thread → process.calls other = .outside
  | _ => True

-- While calls are in progress one of them has the client's disposition and the
-- others have nothing but sig_handler.
structure Process.Kept (client : Action) (process : Process) : Prop where
  quiet : (∀ thread, (process.calls thread).old = none) → process.action = client
  masked : ∀ thread oldAction, (process.calls thread).old = some oldAction → process.action = .sigHandler
  stored : ∀ thread oldAction, (process.calls thread).old = some oldAction → oldAction = some client ∨ oldAction = some .sigHandler
  owner : ∀ thread oldAction, (process.calls thread).old = some oldAction → ∃ first, (process.calls first).old = some (some client)

section Steps
variable {client : Action} {process process' : Process} {thread : Nat}

theorem old_outside {progress : Progress} : progress.old = none ↔ progress = .outside := by
  cases progress <;> simp [Progress.old]

theorem enter_old :
    ((process.enter thread progress).calls other).old = if other = thread then progress.old else (process.calls other).old := by
  by_cases same : other = thread
  · simp [Process.enter,same]
  · simp [Process.enter,same]

section
variable (kept : process.Kept client)
include kept

theorem kept_same (action : process'.action = process.action)
    (old : ∀ thread, (process'.calls thread).old = (process.calls thread).old) : process'.Kept client := by
  obtain ⟨quiet,masked,stored,owner⟩ := kept
  constructor
  · simpa only [old,action] using quiet
  · simpa only [old,action] using masked
  · simpa only [old] using stored
  · simpa only [old] using owner

theorem kept_construct (outside : process.calls thread = .outside) :
    Process.Kept client {process.enter thread (.waiting (some process.action)) with action := .sigHandler} := by
  have old (other : Nat) : ((process.enter thread (.waiting (some process.action))).calls other).old =
      if other = thread then some (some process.action) else (process.calls other).old := enter_old
  -- The first call finds the client's disposition, a later one sig_handler.
  have found : process.action = client ∨ process.action = .sigHandler ∧ ∃ first, (process.calls first).old = some (some client) := by
    by_cases alone : ∀ other, (process.calls other).old = none
    · exact .inl (kept.quiet alone)
    · obtain ⟨other,busy⟩ := not_forall.mp alone
      obtain ⟨oldAction,stored⟩ := Option.ne_none_iff_exists'.mp busy
      exact .inr ⟨kept.masked other oldAction stored,kept.owner other oldAction stored⟩
  refine ⟨fun all => ?_,fun _ _ _ => rfl,fun other oldAction stored => ?_,fun _ _ _ => ?_⟩
  · have wrong := all thread
    rw [old] at wrong
    simp at wrong
  · rw [old] at stored
    split at stored
    · cases stored
      exact found.imp (congrArg some) fun masked => congrArg some masked.1
    · exact kept.stored other oldAction stored
  · rcases found with same | ⟨_,first,theirs⟩
    · exact ⟨thread,by rw [old,if_pos rfl,same]⟩
    · refine ⟨first,?_⟩
      have apart : first ≠ thread := by
        rintro rfl
        rw [outside] at theirs
        cases theirs
      rw [old,if_neg apart,theirs]

theorem kept_destruct (unlocked : process.calls thread = .unlocked (some oldAction))
    (alone : oldAction ≠ .sigHandler → ∀ other, other ≠ thread → process.calls other = .outside) :
    Process.Kept client {process.enter thread .outside with action := oldAction} := by
  have old (other : Nat) : ((process.enter thread .outside).calls other).old = if other = thread then none else (process.calls other).old :=
    enter_old
  have mine : (process.calls thread).old = some (some oldAction) := by rw [unlocked]; rfl
  have others {other : Nat} {stored : Option Action} (busy : ((process.enter thread .outside).calls other).old = some stored) :
      other ≠ thread ∧ (process.calls other).old = some stored := by
    rw [old] at busy
    split at busy
    · cases busy
    · exact ⟨‹_›,busy⟩
  have handler {other : Nat} {stored : Option Action} (busy : ((process.enter thread .outside).calls other).old = some stored) :
      oldAction = .sigHandler := by
    by_contra clients
    obtain ⟨apart,there⟩ := others busy
    rw [alone clients other apart] at there
    cases there
  obtain ⟨first,owned⟩ := kept.owner thread _ mine
  refine ⟨fun all => ?_,fun other stored busy => handler busy,fun other stored busy => kept.stored other stored (others busy).2,
    fun other stored busy => ?_⟩
  · -- Nobody is left, so it is this call that had the client's disposition.
    have same : first = thread := by
      by_contra apart
      have gone := all first
      rw [old,if_neg apart,owned] at gone
      cases gone
    rw [same,mine] at owned
    simpa using owned
  · by_cases same : first = thread
    · rw [same,mine] at owned
      have client : oldAction = client := by simpa using owned
      obtain ⟨_,there⟩ := others busy
      refine ⟨other,?_⟩
      rw [busy]
      rcases kept.stored other stored there with mine | masked
      · rw [mine]
      · rw [masked,← client,handler busy]
    · exact ⟨first,by rw [old,if_neg same,owned]⟩

theorem kept_enter (same : progress.old = (process.calls thread).old)
    : Process.Kept client {process.enter thread progress with mutex := mutex} := by
  refine kept_same kept rfl fun other => enter_old.trans ?_
  split
  · rename_i equal; rw [equal,same]
  · rfl

theorem kept_lock : (process.lock thread).Kept client := by
  unfold Process.lock
  split
  · rename_i waiting _
    exact kept_enter kept (by rw [waiting]; rfl)
  · exact kept

theorem kept_finish : (process.finish thread).Kept client := by
  unfold Process.finish
  split
  · rename_i running
    exact kept_enter kept (by rw [running]; rfl)
  · exact kept

theorem kept_next (orderly : step.Orderly process) : (process.next step).Kept client := by
  cases step with
  | construct thread works =>
    subst works
    change (process.construct thread true).Kept client
    unfold Process.construct
    split
    · rename_i outside
      exact kept_construct kept outside
    · exact kept
  | lock thread => exact kept_lock kept
  | finish thread => exact kept_finish kept
  | destruct thread works =>
    obtain ⟨works,alone⟩ := orderly
    subst works
    change (process.destruct thread true).Kept client
    unfold Process.destruct
    split
    · rename_i oldAction unlocked
      exact kept_destruct kept unlocked (alone oldAction unlocked)
    · rename_i unlocked
      have wrong := kept.stored thread none (by rw [unlocked]; rfl)
      simp at wrong
    · exact kept

end

theorem next_other (apart : other ≠ step.thread) : (process.next step).calls other = process.calls other := by
  have entered (progress : Progress) : (process.enter step.thread progress).calls other = process.calls other := by
    simp [Process.enter,apart]
  cases step with
  | construct thread works =>
    change (process.construct thread works).calls other = _
    unfold Process.construct
    split
    · split <;> exact entered _
    · rfl
  | lock thread =>
    change (process.lock thread).calls other = _
    unfold Process.lock
    split
    · exact entered _
    · rfl
  | finish thread =>
    change (process.finish thread).calls other = _
    unfold Process.finish
    split
    · exact entered _
    · rfl
  | destruct thread works =>
    change (process.destruct thread works).calls other = _
    unfold Process.destruct
    split
    · split <;> exact entered _
    · exact entered _
    · rfl

theorem run_other (process : Process) {steps : List Step} (apart : ∀ step ∈ steps, other ≠ step.thread) :
    (steps.foldl Process.next process).calls other = process.calls other := by
  induction steps generalizing process with
  | nil => rfl
  | cons step rest ih =>
    rw [List.foldl_cons,ih _ fun later inside => apart later (List.mem_cons_of_mem _ inside)]
    exact next_other (apart step List.mem_cons_self)

theorem kept_start (client : Action) : (Process.start client).Kept client := ⟨fun _ => rfl,nofun,nofun,nofun⟩

theorem kept_survives (kept : process.Kept client) : process.Survives client := by
  refine ⟨fun quiet => kept.quiet fun thread => old_outside.mpr (quiet thread),fun thread oldAction running => ?_⟩
  exact kept.masked thread oldAction (by rw [running]; rfl)

theorem disposition_survives {steps : List Step}
    (path : Reached (fun process step => step.Orderly process) Process.next (Process.start client) steps process) :
    process.Survives client :=
  kept_survives (reached_invariant (kept_start client) (fun _ _ kept orderly => kept_next kept orderly) path)

end Steps

-- What the mutex does see to: one body at a time, whatever the order of the steps.
def Process.Guarded (process : Process) : Prop := ∀ thread oldAction, process.calls thread = .running oldAction → process.mutex = some thread

section Bodies
variable {process : Process}

theorem guarded_enter (guarded : process.Guarded) (stopped : ∀ oldAction, progress ≠ .running oldAction)
    : Process.Guarded {process.enter thread progress with action := action} := by
  intro other oldAction running
  by_cases same : other = thread
  · subst same
    simp only [Process.enter,Function.update_self] at running
    exact absurd running (stopped oldAction)
  · simp only [Process.enter,Function.update_of_ne same] at running
    exact guarded other oldAction running

theorem guarded_next (guarded : process.Guarded) : (process.next step).Guarded := by
  cases step with
  | construct thread works =>
    change (process.construct thread works).Guarded
    unfold Process.construct
    split
    · split
      · exact guarded_enter guarded nofun
      · exact guarded_enter guarded nofun
    · exact guarded
  | lock thread =>
    change (process.lock thread).Guarded
    unfold Process.lock
    split
    · rename_i free
      intro other oldAction running
      by_cases same : other = thread
      · rw [same]
      · simp only [Process.enter,Function.update_of_ne same] at running
        rw [guarded other oldAction running] at free
        cases free
    · exact guarded
  | finish thread =>
    change (process.finish thread).Guarded
    unfold Process.finish
    split
    · rename_i mine
      intro other oldAction running
      by_cases same : other = thread
      · simp [Process.enter,same] at running
      · simp only [Process.enter,Function.update_of_ne same] at running
        have equal := (guarded other oldAction running).symm.trans (guarded thread _ mine)
        exact absurd (Option.some.inj equal) same
    · exact guarded
  | destruct thread works =>
    change (process.destruct thread works).Guarded
    unfold Process.destruct
    split
    · split
      · exact guarded_enter guarded nofun
      · exact guarded_enter guarded nofun
    · exact guarded_enter guarded nofun
    · exact guarded

end Bodies

-- The second call begins while the first one waits for the mutex, and ends before it runs.
def nested : List Step :=
  [.construct 0 true,.construct 1 true,.lock 1,.finish 1,.destruct 1 true,.lock 0,.finish 0,.destruct 0 true]

theorem steps_other {steps : List Step} {other : Nat} (first : other ≠ 0) (second : other ≠ 1)
    (two : ∀ step ∈ steps, step.thread = 0 ∨ step.thread = 1) : ∀ step ∈ steps, other ≠ step.thread := by
  intro step inside
  rcases two step inside with zero | one
  · rw [zero]; exact first
  · rw [one]; exact second

theorem disposition_survives_nested : (nested.foldl Process.next (Process.start (.client 0))).Survives (.client 0) ∧
      (nested.foldl Process.next (Process.start (.client 0))).action = .client 0 := by
  refine ⟨disposition_survives (reached_run ⟨rfl,rfl,trivial,trivial,⟨rfl,fun oldAction mine clients => ?_⟩,trivial,trivial,
    ⟨rfl,fun oldAction _ _ other apart => ?_⟩,trivial⟩),by decide⟩
  · cases mine
    exact absurd rfl clients
  · by_cases second : other = 1
    · subst second; rfl
    · have two : ∀ step ∈ nested.take 7, step.thread = 0 ∨ step.thread = 1 := by decide
      exact run_other (Process.start (.client 0)) (steps_other apart second two)

def overlapping : List Step := [.construct 0 true,.construct 1 true,.lock 0,.finish 0,.destruct 0 true,.lock 1]

def overlapped : List Step := overlapping ++ [.finish 1,.destruct 1 true]

theorem disposition_lost : ¬ (overlapping.foldl Process.next (Process.start (.client 0))).Survives (.client 0) ∧
      ¬ (overlapped.foldl Process.next (Process.start (.client 0))).Survives (.client 0) := by
  refine ⟨fun survives => ?_,fun survives => ?_⟩
  · have masked := survives.masked 1 (some .sigHandler) (by decide)
    revert masked
    decide
  · have quiet : (overlapped.foldl Process.next (Process.start (.client 0))).Quiet := by
      intro thread
      by_cases first : thread = 0
      · subst first; decide
      · by_cases second : thread = 1
        · subst second; decide
        · have two : ∀ step ∈ overlapped, step.thread = 0 ∨ step.thread = 1 := by decide
          exact run_other (Process.start (.client 0)) (steps_other first second two)
    have restored := survives.restored quiet
    revert restored
    decide

end CommonTools.Interface.Signals
