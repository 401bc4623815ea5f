import CommonTools.FeDaemon.Runs

namespace CommonTools.FeDaemon
open OrderedMaps Programs List Registry OrderedMap Effect
open Daemon hiding registry

def Registry.utilsOf (registry : Registry) (appId : Id) : ProcSet := (registry.utilMap.find appId).getD .empty

def Effect.signals (registry : Registry) : Effect → List (Pid × Int)
  | .deregisters appId appPid =>
    (registry.utilsOf appId).entries ++ (registry.appCleanupList.find appPid).elim [] fun _ => [(appPid,SIGTERM)]
  | .releases appId _ => (registry.utilsOf appId).entries
  | _ => []

theorem apply_signals {effect : Effect} {registry : Registry} :
    (effect.apply registry).signals = registry.signals ++ effect.signals registry := by
  cases effect with
  | adopts instance' cleanUp =>
    have adopted : (registry.adopt instance').signals = registry.signals := by
      unfold adopt emplaceMPIR
      split <;> rfl
    cases cleanUp <;> exact adopted.trans (append_nil _).symm
  | deregisters appId appPid =>
    rw [apply,deregister,terminateApp_eq]
    exact append_assoc _ _ _
  | releases appId appPid => rfl
  | _ => exact (append_nil _).symm

def Daemon.sent (daemon : Daemon) (happening : Happening) : List (Pid × Int) :=
  (daemon.next happening).registry.signals.drop daemon.registry.signals.length

theorem sent_request {daemon : Daemon} {command : Command} :
    daemon.sent (.request host command) = (command.effect host daemon.registry).signals daemon.registry := by
  obtain ⟨launching,served⟩ := serve_effect host command daemon
  rw [sent,Daemon.next,served]
  change ((command.effect host daemon.registry).apply daemon.registry).signals.drop _ = _
  rw [apply_signals,drop_left]

theorem sent_removed {daemon : Daemon} :
    daemon.sent (.removed appId) = if appId ∈ daemon.removing then (daemon.registry.utilsOf appId).entries else [] := by
  rw [sent,Daemon.next,remove]
  split
  · exact drop_left
  · exact drop_length

def Registry.shutdown (registry : Registry) : Registry :=
  {registry with
    utilMap := .empty
    appCleanupList := .empty
    signals := registry.signals ++ registry.utilMap.entries.flatMap (fun row => row.2.entries) ++ registry.appCleanupList.entries}

def Registry.shutdownSent (registry : Registry) : List (Pid × Int) := registry.shutdown.signals.drop registry.signals.length

theorem shutdownSent_eq {registry : Registry} : registry.shutdownSent =
    registry.utilMap.entries.flatMap (fun row => row.2.entries) ++ registry.appCleanupList.entries := by
  rw [shutdownSent,shutdown,append_assoc,drop_left]

-- Deregistration of its application, or at the latest shutdown, will end it.
def Registry.WatchesFor (registry : Registry) (appId : Id) (pid : Pid) : Prop :=
  registry.Registered appId ∧ ((registry.utilsOf appId).find pid).isSome = true

def Registry.Watches (registry : Registry) (pid : Pid) : Prop :=
  (registry.appCleanupList.find pid).isSome = true ∨ ∃ appId, registry.WatchesFor appId pid

section Children
variable (host : Host) (registry : Registry)

-- A shimmed launch starts its wrapper first, and makes nothing of its pid.
def forkWrapper (shim : ShimData) (data : LaunchData) : Op Pid := do
  let shimDirectory := shim.temporaryShimBinDir ++ host.shimToken
  let link := shimDirectory ++ ascii "/" ++ host.basename shim.shimmedLauncherPath
  attempt (ascii "mkdir " ++ shimDirectory ++ ascii " failed: " ++ ·) (host.mkdir shimDirectory)
  attempt (ascii "link " ++ shim.shimBinaryPath ++ ascii " -> " ++ link ++ ascii " failed: " ++ ·)
    (host.symlink shim.shimBinaryPath link)
  let launcherPath ← findPath host data.filepath
  forkExec host (shimLaunchData host shim data launcherPath shimDirectory)

def Command.forks : Command → Option Pid
  | .forkExecvpApp data => ran (forkExec host data) registry
  | .forkExecvpUtil _ _ data => ran (forkExec host data) registry
  | .launchMPIR data => (ran ((MPIRRequest.launchMPIR data).obtain host) registry).map MPIRInstance.launcherPid
  | .launchMPIRShim shim data => ran (forkWrapper host shim data) registry
  | _ => none

def Command.waits : Command → Option Pid
  | .forkExecvpUtil appId runMode data =>
    if runMode = RunMode.synchronous.code ∧ registry.Registered appId
    then (ran (forkExec host data) registry).filter fun utilPid => !threw (host.waitpid utilPid)
    else none
  | _ => none

def Command.lets : Command → Option Pid
  | .releaseApp appId => registry.idPidMap.find appId
  | _ => none

end Children

def ChildCode.final : ChildCode → Bool
  | .exited => true
  | .killed => true
  | .dumped => true
  | _ => false

def Happening.forks (daemon : Daemon) : Happening → List Pid
  | .request host command => (command.forks host daemon.registry).toList
  | _ => []

def Happening.ends (daemon : Daemon) : Happening → List Pid
  | .request host command =>
    (daemon.sent (.request host command)).map Prod.fst ++ (command.waits host daemon.registry).toList ++
      (command.lets daemon.registry).toList
  | .child code pid => if code.final then [pid] else []
  | .removed appId => (daemon.sent (.removed appId)).map Prod.fst

def without (pids gone : List Pid) : List Pid := pids.filter fun pid => pid ∉ gone

def within (pids known : List Pid) : List Pid := pids.filter fun pid => pid ∈ known

theorem within_nil (apart : ∀ pid ∈ pids, pid ∉ known) : within pids known = [] := by
  simpa [within] using apart

theorem mem_without : pid ∈ without pids gone ↔ pid ∈ pids ∧ pid ∉ gone := by simp [without]

-- The daemon with the processes it has forked and still has to end.
structure Nursery where
  daemon : Daemon
  children : List Pid

def Nursery.start : Nursery := ⟨Daemon.start,[]⟩

def Nursery.next (nursery : Nursery) (happening : Happening) : Nursery where
  daemon := nursery.daemon.next happening
  children := without (nursery.children ++ happening.forks nursery.daemon) (happening.ends nursery.daemon)

section Watching
variable {registry : Registry}

theorem watches_mono {registry' : Registry} (watched : registry.Watches pid)
    (list : (registry.appCleanupList.find pid).isSome = true → (registry'.appCleanupList.find pid).isSome = true)
    (utils : ∀ appId, registry.WatchesFor appId pid → registry'.WatchesFor appId pid) : registry'.Watches pid := by
  rcases watched with listed | ⟨appId,filed⟩
  · exact .inl (list listed)
  · exact .inr ⟨appId,utils appId filed⟩

theorem watches_adopt (watched : registry.Watches pid) : (registry.adopt instance').Watches pid := by
  have added : (registry.added instance'.launcherPid).Watches pid :=
    watches_mono watched id fun _ filed => ⟨registered_added filed.1,filed.2⟩
  unfold adopt emplaceMPIR
  split <;> exact added

theorem watches_erased {registry' : Registry}
    (sameIds : registry'.idPidMap = registry.idPidMap.erase appId) (utils : registry'.utilMap = registry.utilMap.erase appId)
    (list : registry'.appCleanupList = registry.appCleanupList.erase appPid) (kept : pid ≠ appPid ∨ ¬ (registry.appCleanupList.find pid).isSome = true)
    (unsignalled : pid ∉ (registry.utilsOf appId).entries.map Prod.fst) (watched : registry.Watches pid) : registry'.Watches pid := by
  refine watches_mono watched (fun listed => ?_) fun other filed => ?_
  · have differs := kept.resolve_right (not_not.mpr listed)
    simpa [list,differs] using listed
  · have differs : other ≠ appId := by intro same; subst same; exact unsignalled (mem_keys.mpr filed.2)
    simpa [Registry.WatchesFor,Registry.Registered,utilsOf,sameIds,utils,differs] using filed

theorem watches_apply {effect : Effect} (unsignalled : pid ∉ (effect.signals registry).map Prod.fst)
    (unreleased : ∀ appId, effect ≠ .releases appId pid) (watched : registry.Watches pid) : (effect.apply registry).Watches pid := by
  cases effect with
  | registers appPid => exact watches_mono watched id fun _ filed => ⟨registered_added filed.1,filed.2⟩
  | adopts instance' cleanUp =>
    cases cleanUp with
    | false => exact watches_adopt watched
    | true =>
      refine watches_mono (watches_adopt watched) (fun listed => ?_) fun _ filed => filed
      simp only [apply,cleanUp,if_true,find_insert]
      split
      · rfl
      · exact listed
  | tracks appId utilPid signum =>
    refine watches_mono watched id fun other filed => ⟨filed.1,?_⟩
    have inside := filed.2
    simp only [apply,track,utilsOf,find_insert] at inside ⊢
    by_cases same : other = appId
    · rw [if_pos same,Option.getD_some,find_insert]
      split
      · rfl
      · rw [← same]; exact inside
    · rw [if_neg same]; exact inside
  | deregisters appId appPid =>
    rw [Effect.signals,map_append,mem_append,not_or] at unsignalled
    rw [Effect.apply,deregister,terminateApp_eq]
    refine watches_erased rfl rfl rfl ?_ unsignalled.1 watched
    by_contra both
    obtain ⟨same,listed⟩ := not_or.mp both
    obtain ⟨signum,found⟩ := Option.isSome_iff_exists.mp (not_not.mp listed)
    rw [not_not.mp same] at found
    rw [found] at unsignalled
    exact unsignalled.2 (by simp [not_not.mp same])
  | releases appId appPid =>
    have differs : pid ≠ appPid := by intro same; exact unreleased appId (by rw [same])
    exact watches_erased rfl rfl rfl (.inl differs) unsignalled watched
  | _ => exact watched

end Watching

section Tending
variable (host : Host)

def CanFork (data : LaunchData) : Prop :=
  (host.findPath data.filepath).isSome = true ∧ (∀ entry ∈ data.envList, 61 ∈ entry) ∧ threw host.fork = false

def CanWrap (shim : ShimData) (data : LaunchData) : Prop :=
  let shimDirectory := shim.temporaryShimBinDir ++ host.shimToken
  threw (host.mkdir shimDirectory) = false ∧
    threw (host.symlink shim.shimBinaryPath (shimDirectory ++ ascii "/" ++ host.basename shim.shimmedLauncherPath)) = false ∧
    ∃ launcherPath, host.findPath data.filepath = some launcherPath ∧
      CanFork host (shimLaunchData host shim data launcherPath shimDirectory)

-- An application or a wrapper is never forked, a utility only for an application
-- that is registered, and a launcher only if all goes well with it.
def Command.Tends (registry : Registry) : Command → Prop
  | .forkExecvpApp data => ¬ CanFork host data
  | .forkExecvpUtil appId _ data => CanFork host data → registry.Registered appId
  | .launchMPIRShim shim data => ¬ CanWrap host shim data
  | .launchMPIR data => ∀ launcherPath instance', host.findPath data.filepath = some launcherPath →
      host.start launcherPath data = .ok instance' → threw (host.runToMPIRBreakpoint instance') = false ∧
        registry.Free instance'.launcherPid ∧ threw (host.getProctable instance') = false
  | _ => True

def Happening.Tends (daemon : Daemon) : Happening → Prop
  | .request host command => command.Tends host daemon.registry
  | _ => True

theorem threw_of_ok (done : tried = .ok value) : threw tried = false := by
  rw [done]; rfl

theorem ran_forkExec (forked : ran (forkExec host data) registry = some pid) : CanFork host data ∧ 0 < pid.toInt := by
  obtain ⟨registry',done⟩ := ran_some.mp forked
  obtain ⟨found,entries,⟨given,fork,rfl⟩,_⟩ := (forkExec_ok host).mp done
  exact ⟨⟨found,entries,threw_of_ok fork⟩,given.2⟩

theorem ran_forkWrapper (forked : ran (forkWrapper host shim data) registry = some pid) : CanWrap host shim data := by
  obtain ⟨registry',done⟩ := ran_some.mp forked
  obtain ⟨_,one,made,rest⟩ := bind_ok.mp done
  obtain ⟨_,two,linked,rest⟩ := bind_ok.mp rest
  obtain ⟨launcherPath,three,found,rest⟩ := bind_ok.mp rest
  have able := ran_forkExec host (ran_some.mpr ⟨registry',rest⟩)
  exact ⟨threw_of_ok (attempt_ok.mp made).1,threw_of_ok (attempt_ok.mp linked).1,launcherPath,((findPath_ok host).mp found).1,able.1⟩

theorem forked_watched {command : Command} (tends : command.Tends host registry)
    (forked : command.forks host registry = some pid) : ((command.effect host registry).apply registry).Watches pid := by
  cases command with
  | forkExecvpApp data => exact absurd (ran_forkExec host forked).1 tends
  | launchMPIRShim shim data => exact absurd (ran_forkWrapper host forked) tends
  | forkExecvpUtil appId runMode data =>
    have forked : ran (forkExec host data) registry = some pid := forked
    obtain ⟨able,positive⟩ := ran_forkExec host forked
    have known := tends able
    have effect : (Command.forkExecvpUtil appId runMode data).effect host registry = .tracks appId pid SIGTERM := by
      change (ran (forkExec host data) registry).elim idle _ = _
      rw [forked]
      exact if_pos ⟨known,positive⟩
    rw [effect]
    exact .inr ⟨appId,known,by simp [apply,track,utilsOf]⟩
  | launchMPIR data =>
    obtain ⟨instance',obtained,rfl⟩ := Option.map_eq_some_iff.mp forked
    obtain ⟨registry',done⟩ := ran_some.mp obtained
    obtain ⟨launcherPath,_,found,started⟩ := bind_ok.mp done
    obtain ⟨reached,free,read⟩ := tends launcherPath instance' ((findPath_ok host).mp found).1 (attempt_ok.mp started).1
    have effect : (Command.launchMPIR data).effect host registry = .adopts instance' true := by
      change (ran ((MPIRRequest.launchMPIR data).obtain host) registry).elim idle _ = _
      rw [obtained,Option.elim_some,MPIRRequest.adoption,if_pos ⟨by simp [MPIRRequest.reaches,reached],free⟩,read]
      rfl
    rw [effect]
    exact .inl (by simp [apply,cleanUp])
  | _ => cases forked

end Tending

section Growing
variable {nursery : Nursery} {daemon : Daemon}

theorem watches_next {happening : Happening} (watched : daemon.registry.Watches pid) (survives : pid ∉ happening.ends daemon) :
    (daemon.next happening).registry.Watches pid := by
  cases happening with
  | request host command =>
    obtain ⟨launching,served⟩ := serve_effect host command daemon
    rw [Daemon.next,served]
    simp only [Happening.ends,mem_append,not_or,sent_request] at survives
    refine watches_apply survives.1.1 (fun appId releases => ?_) watched
    have caused := effect_causes host command daemon.registry
    rw [releases] at caused
    rw [caused.1] at survives
    exact survives.2 (by simp [Command.lets,caused.2])
  | child code other =>
    obtain ⟨more,handled⟩ := handler_effect
    rw [Daemon.next,handled]
    refine watches_mono watched (fun listed => ?_) fun _ filed => filed
    split
    · rename_i exited
      have differs : pid ≠ other := by
        intro same
        simp [Happening.ends,exited.1,ChildCode.final,same] at survives
      simpa [differs] using listed
    · exact listed
  | removed appId =>
    rw [Happening.ends,sent_removed] at survives
    rw [Daemon.next,remove]
    split
    · rename_i pending
      rw [if_pos pending] at survives
      refine watches_mono watched id fun other filed => ⟨filed.1,?_⟩
      have differs : other ≠ appId := by intro same; subst same; exact survives (mem_keys.mpr filed.2)
      simpa [eraseUtils,utilsOf,differs] using filed.2
    · exact watched

theorem nursery_next (kept : ∀ pid ∈ nursery.children, nursery.daemon.registry.Watches pid) (tends : happening.Tends nursery.daemon) :
    ∀ pid ∈ (nursery.next happening).children, (nursery.next happening).daemon.registry.Watches pid := by
  intro pid member
  obtain ⟨inside,survives⟩ := mem_without.mp member
  rcases mem_append.mp inside with old | new
  · exact watches_next (kept pid old) survives
  · cases happening with
    | request host command =>
      have forked : command.forks host nursery.daemon.registry = some pid := by simpa [Happening.forks] using new
      obtain ⟨launching,served⟩ := serve_effect host command nursery.daemon
      rw [Nursery.next,Daemon.next,served]
      exact forked_watched host tends forked
    | child code other | removed appId => cases new

theorem shutdown_signals {registry : Registry} (watched : registry.Watches pid) : pid ∈ registry.shutdownSent.map Prod.fst := by
  rw [shutdownSent_eq,map_append,mem_append]
  rcases watched with listed | ⟨appId,known,filed⟩
  · exact .inr (mem_keys.mpr listed)
  · unfold utilsOf at filed
    cases found : registry.utilMap.find appId with
    | none => rw [found] at filed; cases filed
    | some set =>
      rw [found] at filed
      obtain ⟨row,inside,rfl⟩ := mem_map.mp (mem_keys.mpr filed)
      have entry := (find_mem (appId,set) registry.utilMap).mp found
      exact .inl (mem_map_of_mem (mem_flatMap.mpr ⟨_,entry,inside⟩))

def Registry.BelongsTo (registry : Registry) (pid : Pid) (appId : Id) : Prop :=
  registry.WatchesFor appId pid ∨ registry.idPidMap.find appId = some pid ∧ (registry.appCleanupList.find pid).isSome = true

theorem deregistration_signals (belongs : daemon.registry.BelongsTo pid appId) :
    pid ∈ (daemon.sent (.request host (.deregisterApp appId))).map Prod.fst := by
  rw [sent_request]
  change pid ∈ (((daemon.registry.idPidMap.find appId).elim .idle (deregisters appId)).signals daemon.registry).map Prod.fst
  rcases belongs with ⟨known,filed⟩ | ⟨found,listed⟩
  · obtain ⟨appPid,found⟩ := Option.isSome_iff_exists.mp known
    rw [found,Option.elim_some,Effect.signals,map_append]
    exact mem_append_left _ (mem_keys.mpr filed)
  · obtain ⟨signum,inList⟩ := Option.isSome_iff_exists.mp listed
    rw [found,Option.elim_some,Effect.signals,inList,map_append]
    exact mem_append_right _ (by simp)

end Growing

structure Nursery.Tended (nursery : Nursery) : Prop where
  watched : ∀ pid ∈ nursery.children, nursery.daemon.registry.Watches pid
  deregistration : ∀ pid ∈ nursery.children, ∀ host appId, nursery.daemon.registry.BelongsTo pid appId →
    pid ∈ (nursery.daemon.sent (.request host (.deregisterApp appId))).map Prod.fst
  shutdown : ∀ pid ∈ nursery.children, pid ∈ nursery.daemon.registry.shutdownSent.map Prod.fst

def forkingHost : Host := {bareHost with findPath := some,fork := .ok ⟨7,by decide⟩}

def noData : LaunchData := ⟨none,[],[],[],[]⟩

def utility : List Happening := [.request bareHost (.registerApp 5),.request forkingHost (.forkExecvpUtil 1 0 noData)]

end CommonTools.FeDaemon
