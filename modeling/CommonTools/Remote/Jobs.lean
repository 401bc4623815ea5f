import CommonTools.FeDaemon.Ranks
import CommonTools.FeDaemon.Registry

namespace CommonTools.Remote
open OrderedMaps FeDaemon List

structure RemoteJob where
  hostname : CStr
  launcherPid : Pid
  proctable : List ElemRead
  occupied : proctable ≠ []

structure GenericSSHApp where
  daemonAppId : Id
  launcherPid : Pid
  deriving DecidableEq

def newGenericSSHApp (mpirId : Id) (job : RemoteJob) : Op GenericSSHApp := do
  if job.proctable = [] then throw (ascii "Application " ++ showInt job.launcherPid.toInt ++ ascii " does not have any nodes.")
  if mpirId = 0 then throw (ascii "tried to create app with invalid daemon id: " ++ showInt mpirId.toInt)
  return ⟨mpirId,job.launcherPid⟩

-- The tool gives its own pid to its daemon.
def registerRemoteJob (getpid : Pid) (job : RemoteJob) : Op GenericSSHApp := do
  let mpirId ← registerAppPID getpid
  newGenericSSHApp mpirId job

def GenericSSHApp.isRunning (host : Host) (app : GenericSSHApp) : Op Bool := checkAppID host app.daemonAppId

section Histories

abbrev Tool := {pid : Pid // 0 < pid.toInt}

structure Moment (tool : Tool) where
  host : Host
  running : host.alive tool.1 = true ∧ host.zombie tool.1 = false
  launcherAlive : RemoteJob → Bool

inductive Event (tool : Tool) where
  | register (job : RemoteJob)
  | check (job : Nat) (moment : Moment tool)

inductive Answer where
  | registered (result : Except Bytes GenericSSHApp)
  | running (result : Except Bytes Bool)
  | noApplication
  deriving DecidableEq

-- The daemon's globals, and one entry for each job that was to be registered.
structure Progress where
  registry : Registry
  apps : List (RemoteJob × Option GenericSSHApp)

def Progress.start : Progress := ⟨.start,[]⟩

variable {tool : Tool}

def Progress.step (progress : Progress) : Event tool → Answer × Progress
  | .register job =>
    match registerRemoteJob tool.1 job progress.registry with
    | .ok app registry => (.registered (.ok app),⟨registry,progress.apps ++ [(job,some app)]⟩)
    | .error what registry => (.registered (.error what),⟨registry,progress.apps ++ [(job,none)]⟩)
  | .check job moment =>
    match progress.apps[job]? with
    | some (_,some app) =>
      match app.isRunning moment.host progress.registry with
      | .ok running registry => (.running (.ok running),{progress with registry := registry})
      | .error what registry => (.running (.error what),{progress with registry := registry})
    | _ => (.noApplication,progress)

def Progress.run (progress : Progress) (events : List (Event tool)) : Progress :=
  events.foldl (fun progress event => (progress.step event).2) progress

def Serves (progress : Progress) (event : Event tool) : Prop :=
  match event with
  | .register job => ∃ app, (progress.step event).1 = .registered (.ok app) ∧ app.launcherPid = job.launcherPid ∧
    app.daemonAppId ≠ 0 ∧ ((progress.step event).2.registry.idPidMap.find app.daemonAppId).isSome = true ∧
    ∀ row ∈ progress.apps, ∀ other, row.2 = some other → other.daemonAppId ≠ app.daemonAppId
  | .check place moment => ∀ job app, progress.apps[place]? = some (job,some app) →
    (progress.step event).1 = .running (.ok (moment.launcherAlive job))

def ServesAll (events : List (Event tool)) : Prop := ∀ before event after, events = before ++ event :: after →
  Serves (Progress.start.run before) event

end Histories

section Following
variable {tool : Tool}

def jobsOf (events : List (Event tool)) : List RemoteJob := events.filterMap fun
  | .register job => some job
  | .check .. => none

def registeredOnce (tool : Tool) : Registry :=
  {Registry.start with
    lastId := 1
    pidIdMap := OrderedMap.empty.insert tool.1 1
    idPidMap := OrderedMap.empty.insert 1 tool.1}

theorem tool_pid : tool.1 ≠ 0 := by
  intro zero
  have positive := tool.2
  rw [zero] at positive
  exact absurd positive (by decide)

theorem register_first : registerRemoteJob tool.1 job .start = .ok ⟨1,job.launcherPid⟩ (registeredOnce tool) := by
  have named : registerAppPID tool.1 .start = .ok 1 (registeredOnce tool) := by
    unfold registerAppPID
    rw [if_neg tool_pid]
    rfl
  have made : newGenericSSHApp 1 job (registeredOnce tool) = .ok ⟨1,job.launcherPid⟩ (registeredOnce tool) := by
    unfold newGenericSSHApp
    rw [if_neg job.occupied,if_neg (by decide)]
    rfl
  exact (Programs.bind_after named).trans made

theorem register_again : registerRemoteJob tool.1 job (registeredOnce tool) =
    .error (ascii "duplicate app pid: " ++ showInt tool.1.toInt) (registeredOnce tool) := by
  have refused : registerAppPID tool.1 (registeredOnce tool) =
      .error (ascii "duplicate app pid: " ++ showInt tool.1.toInt) (registeredOnce tool) := by
    have known : (registeredOnce tool).pidIdMap.find tool.1 = some 1 := by simp [registeredOnce]
    unfold registerAppPID
    rw [if_neg tool_pid,Programs.get_after,known]
    rfl
  exact Programs.bind_error.mpr (.inl refused)

theorem check_registered {moment : Moment tool} :
    GenericSSHApp.isRunning moment.host ⟨1,pid⟩ (registeredOnce tool) = .ok true (registeredOnce tool) := by
  have known : (registeredOnce tool).idPidMap.find 1 = some tool.1 := by simp [registeredOnce]
  unfold GenericSSHApp.isRunning checkAppID
  rw [Programs.get_after,known]
  simp [moment.running.1,moment.running.2]
  rfl

def registryAfter (tool : Tool) : List RemoteJob → Registry
  | [] => .start
  | _ :: _ => registeredOnce tool

def appsAfter : List RemoteJob → List (RemoteJob × Option GenericSSHApp)
  | [] => []
  | first :: rest => (first,some ⟨1,first.launcherPid⟩) :: rest.map fun job => (job,none)

theorem jobsOf_snoc : jobsOf (before ++ [event]) = jobsOf before ++ jobsOf [event] := filterMap_append

theorem appsAfter_found
    (found : (appsAfter jobs)[place]? = some (job,some app)) : place = 0 ∧ jobs.head? = some job ∧ app = ⟨1,job.launcherPid⟩ := by
  cases jobs with
  | nil => cases found
  | cons first rest =>
    cases place with
    | zero =>
      cases found
      exact ⟨rfl,rfl,rfl⟩
    | succ place =>
      have later : (rest.map fun job => (job,(none : Option GenericSSHApp)))[place]? = some (job,some app) := found
      rw [getElem?_map] at later
      obtain ⟨other,_,wrong⟩ := Option.map_eq_some_iff.mp later
      cases wrong

theorem register_step : Progress.step ⟨registryAfter tool jobs,appsAfter jobs⟩ (.register job : Event tool) =
      (.registered (if jobs = [] then .ok ⟨1,job.launcherPid⟩ else .error (ascii "duplicate app pid: " ++ showInt tool.1.toInt)),
        ⟨registryAfter tool (jobs ++ [job]),appsAfter (jobs ++ [job])⟩) := by
  cases jobs with
  | nil => simp [Progress.step,registryAfter,appsAfter,register_first]
  | cons first rest => simp [Progress.step,registryAfter,appsAfter,register_again]

theorem check_step {jobs : List RemoteJob} {place : Nat} {moment : Moment tool} :
    Progress.step ⟨registryAfter tool jobs,appsAfter jobs⟩ (.check place moment) =
      (if place = 0 ∧ jobs ≠ [] then .running (.ok true) else .noApplication,⟨registryAfter tool jobs,appsAfter jobs⟩) := by
  unfold Progress.step
  dsimp only
  split
  · rename_i job app found
    obtain ⟨zero,first,rfl⟩ := appsAfter_found found
    cases jobs with
    | nil => cases first
    | cons head rest =>
      simp only [registryAfter,check_registered]
      simp [zero]
  · rename_i missing
    rw [if_neg]
    intro ⟨zero,some'⟩
    cases jobs with
    | nil => exact some' rfl
    | cons first rest => exact missing first ⟨1,first.launcherPid⟩ (by simp [zero,appsAfter])

theorem run_progress {events : List (Event tool)} :
    Progress.start.run events = ⟨registryAfter tool (jobsOf events),appsAfter (jobsOf events)⟩ := by
  induction events using reverseRecOn with
  | nil => rfl
  | append_singleton events event ih =>
    have step : Progress.start.run (events ++ [event]) = ((Progress.start.run events).step event).2 := by simp [Progress.run]
    rw [step,ih,jobsOf_snoc]
    cases event with
    | register job =>
      rw [register_step]
      rfl
    | check place moment =>
      rw [check_step]
      simp [jobsOf]

end Following

section Results
variable {tool : Tool}

-- No second job is registered, and the one that is there is checked while its launcher lives.
def Fits (before : List (Event tool)) : Event tool → Prop
  | .register _ => jobsOf before = []
  | .check place moment => place = 0 → ∀ job, (jobsOf before).head? = some job → moment.launcherAlive job = true

theorem serves_fits {before : List (Event tool)} {event : Event tool} : Serves (Progress.start.run before) event ↔ Fits before event := by
  rw [run_progress]
  cases event with
  | register job =>
    simp only [Serves,Fits,register_step]
    by_cases none : jobsOf before = []
    · rw [none]
      refine ⟨fun _ => rfl,fun _ => ⟨⟨1,job.launcherPid⟩,rfl,rfl,(by decide : (1 : Id) ≠ 0),?_,?_⟩⟩
      · simp [registryAfter,registeredOnce]
      · intro row inside
        cases inside
    · simp [none]
  | check place moment =>
    simp only [Serves,Fits,check_step]
    constructor
    · intro serves zero job first
      cases jobs : jobsOf before with
      | nil =>
        rw [jobs] at first
        cases first
      | cons head rest =>
        rw [jobs] at first serves
        cases first
        have answer := serves job ⟨1,job.launcherPid⟩ (by simp [zero,appsAfter])
        simpa [zero] using answer.symm
    · intro fits job app found
      obtain ⟨zero,first,rfl⟩ := appsAfter_found found
      have some' : jobsOf before ≠ [] := by
        intro none
        rw [none] at first
        cases first
      simp [zero,some',fits zero job first]

end Results

theorem remote_jobs_served (tool : Tool) (events : List (Event tool)) :
    ServesAll events ↔ ∀ before event after, events = before ++ event :: after → Fits before event :=
  forall₄_congr fun before event _ _ => serves_fits

def toolProcess : Tool := ⟨500,by decide⟩

def remoteJob (pid : Pid) : RemoteJob := ⟨⟨ascii "n1",by decide⟩,pid,[⟨70,ascii "n2",ascii "a"⟩],cons_ne_nil _ _⟩

def registration (pid : Pid) : Event toolProcess := .register (remoteJob pid)

def laterMoment : Moment toolProcess := ⟨{bareHost with alive := fun _ => true},⟨rfl,rfl⟩,fun _ => false⟩

theorem second_remote_job_refused : ((Progress.start.run [registration 100]).step (registration 200)).1 =
      .registered (.error (ascii "duplicate app pid: 500")) ∧
    ((Progress.start.run [registration 100]).step (.check 0 laterMoment)).1 = .running (.ok true) ∧
    ¬ ServesAll [registration 100,registration 200] ∧ ¬ ServesAll [registration 100,.check 0 laterMoment] := by
  refine ⟨?_,?_,fun serves => ?_,fun serves => ?_⟩
  · unfold registration
    rw [run_progress,register_step]
    decide
  · rw [run_progress,check_step]
    rfl
  · have fits := serves_fits.mp (serves [registration 100] (registration 200) [] rfl)
    cases fits
  · have fits := serves_fits.mp (serves [registration 100] (.check 0 laterMoment) [] rfl)
    have alive := fits rfl (remoteJob 100) rfl
    cases alive

end CommonTools.Remote
