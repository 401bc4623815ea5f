import CommonTools.FeDaemon.Registry

namespace CommonTools.FeDaemon
open OrderedMaps Programs

structure SameTables (before after : Registry) : Prop where
  pidIdMap : after.pidIdMap = before.pidIdMap
  idPidMap : after.idPidMap = before.idPidMap
  mpirMap : after.mpirMap = before.mpirMap
  appCleanupList : after.appCleanupList = before.appCleanupList
  launchingInstance : after.launchingInstance = before.launchingInstance

theorem sameTables_refl : SameTables registry registry := ⟨rfl,rfl,rfl,rfl,rfl⟩

inductive MPIRRequest where
  | launchMPIR (data : LaunchData)
  | attachMPIR (launcherName : Bytes) (launcherPid : Pid)
  | launchMPIRShim (shim : ShimData) (data : LaunchData)

namespace MPIRRequest
variable (host : Host)

def perform : MPIRRequest → Op MPIRResult
  | .launchMPIR data => operate host .LaunchMPIR (.launchMPIR data)
  | .attachMPIR launcherName launcherPid => operate host .AttachMPIR (.attachMPIR launcherName launcherPid)
  | .launchMPIRShim shim data => operate host .LaunchMPIRShim (.launchMPIRShim shim data)

def obtain : MPIRRequest → Op MPIRInstance
  | .launchMPIR data => do
    let launcherPath ← findPath host data.filepath
    attempt (launcherFailed data.argvList) (host.start launcherPath data)
  | .attachMPIR launcherName launcherPid => do
    let launcherPath ← findPath host launcherName
    attempt (attachFailed launcherPath launcherPid) (host.attach launcherPath launcherPid)
  | .launchMPIRShim shim data => do
    let shimDirectory := shim.temporaryShimBinDir ++ host.shimToken
    let link := shimDirectory ++ ascii "/" ++ host.basename shim.shimmedLauncherPath
    attempt (ascii "mkdir " ++ shimDirectory ++ ascii " failed: " ++ ·) (host.mkdir shimDirectory)
    attempt (ascii "link " ++ shim.shimBinaryPath ++ ascii " -> " ++ link ++ ascii " failed: " ++ ·)
      (host.symlink shim.shimBinaryPath link)
    let launcherPath ← findPath host data.filepath
    let _ ← forkExec host (shimLaunchData host shim data launcherPath shimDirectory)
    match host.shimPid with
    | none => throw (ascii "MPIR shim failed to start. Set the CTI_DEBUG environment variable to 1 to show shim/wrapper output.")
    | some launcherPid =>
      attempt (ascii "Failed attach to launcher under MPIR shim (" ++ · ++ ascii ")")
        (host.attach shim.shimmedLauncherPath launcherPid)

def adopt (instance' : MPIRInstance) : MPIRRequest → Op MPIRResult
  | .launchMPIR _ => do
    modify fun registry => {registry with launchingInstance := some instance'}
    attempt id (host.runToMPIRBreakpoint instance')
    let mpirResult ← extractMPIRResult host instance'
    modify fun registry => {registry with launchingInstance := none}.cleanUp mpirResult.launcherPid
    return mpirResult
  | .attachMPIR _ _ => extractMPIRResult host instance'
  | .launchMPIRShim _ _ => do
    let mpirResult ← extractMPIRResult host instance'
    modify (·.cleanUp mpirResult.launcherPid)
    return mpirResult

theorem perform_parts {request : MPIRRequest} :
    request.perform host = request.obtain host >>= fun instance' => request.adopt host instance' := by
  cases request with
  | launchMPIR data | attachMPIR launcherName launcherPid => simp only [obtain,adopt,bind_assoc]; rfl
  | launchMPIRShim shim data =>
    change FeDaemon.launchMPIRShim host shim data = _
    unfold FeDaemon.launchMPIRShim
    cases reported : host.shimPid with
    | none => simp only [obtain,reported,bind_assoc]; rfl
    | some launcherPid => simp only [obtain,adopt,reported,bind_assoc]

theorem attempt_silent : Silent (attempt what tried) := by
  cases tried <;> exact fun _ => rfl

theorem findPath_silent : Silent (findPath host fileName) := by
  unfold findPath
  cases host.findPath fileName <;> exact fun _ => rfl

theorem forkExec_silent (launchData : LaunchData) : Silent (forkExec host launchData) := by
  have entry (envVarVal : Bytes) : Silent (checkEnv envVarVal) := by
    unfold checkEnv
    split <;> exact fun _ => rfl
  refine silent_bind (findPath_silent host) fun _ => silent_bind (silent_forM entry) fun _ => ?_
  exact silent_bind attempt_silent fun _ _ => rfl

theorem obtain_silent {request : MPIRRequest} : Silent (request.obtain host) := by
  cases request with
  | launchMPIR data | attachMPIR launcherName launcherPid => exact silent_bind (findPath_silent host) fun _ => attempt_silent
  | launchMPIRShim shim data =>
    refine silent_bind attempt_silent fun _ => silent_bind attempt_silent fun _ => ?_
    refine silent_bind (findPath_silent host) fun _ => silent_bind (forkExec_silent host _) fun _ => ?_
    cases host.shimPid with
    | none => exact fun _ => rfl
    | some launcherPid => exact attempt_silent

theorem obtain_positive (sound : host.Sound) {request : MPIRRequest} (done : request.obtain host registry = .ok instance' registry') :
    0 < instance'.launcherPid.toInt := by
  cases request with
  | launchMPIR data =>
    obtain ⟨launcherPath,_,_,started⟩ := bind_ok.mp done
    exact sound.started _ _ _ (attempt_ok.mp started).1
  | attachMPIR launcherName launcherPid =>
    obtain ⟨launcherPath,_,_,attached⟩ := bind_ok.mp done
    exact sound.attached _ _ _ (attempt_ok.mp attached).1
  | launchMPIRShim shim data =>
    obtain ⟨_,_,_,made⟩ := bind_ok.mp done
    obtain ⟨_,_,_,linked⟩ := bind_ok.mp made
    obtain ⟨launcherPath,_,_,found⟩ := bind_ok.mp linked
    obtain ⟨_,_,_,forked⟩ := bind_ok.mp found
    cases reported : host.shimPid with
    | none =>
      rw [reported] at forked
      cases forked
    | some launcherPid =>
      rw [reported] at forked
      exact sound.attached _ _ _ (attempt_ok.mp forked).1

end MPIRRequest

section Extraction
variable (host : Host)

theorem extract_taken (taken : ¬ Registry.Free registry instance'.launcherPid) :
    ∃ message, extractMPIRResult host instance' registry = .error message registry :=
  ⟨_,bind_stopped (registerAppPID_taken taken)⟩

theorem extract_unread (free : Registry.Free registry instance'.launcherPid) (unread : host.getProctable instance' = .error reason) :
    extractMPIRResult host instance' registry = .error reason (registry.added instance'.launcherPid) := by
  rw [extractMPIRResult,bind_after (registerAppPID_free free),unread]
  rfl

theorem extract_read (free : Registry.Free registry instance'.launcherPid) (read : host.getProctable instance' = .ok proctable) :
    ∃ result registry', extractMPIRResult host instance' registry = .ok result registry' := by
  rw [extractMPIRResult,bind_after (registerAppPID_free free),read]
  exact ⟨_,_,rfl⟩

theorem added_differs (free : Registry.Free registry appPid) (positive : 0 < appPid.toInt) :
    (registry.added appPid).pidIdMap ≠ registry.pidIdMap := by
  intro same
  have nonzero : appPid ≠ 0 := by
    intro zero
    subst zero
    exact absurd positive (by decide)
  have found := congrArg (·.find appPid) same
  simp only [Registry.added,if_neg nonzero,OrderedMap.find_insert,if_true,free.resolve_left nonzero] at found
  cases found

end Extraction

namespace MPIRRequest
variable (host : Host)

-- What becomes of the launcher: a launch that goes wrong stays the one in
-- progress, and a number is only taken back by deregistering it.
def Settles (registry : Registry) (instance' : MPIRInstance) : MPIRRequest → Prop
  | .launchMPIR _ =>
    if threw (host.runToMPIRBreakpoint instance') = false ∧ registry.Free instance'.launcherPid then
      threw (host.getProctable instance') = false
    else registry.launchingInstance = some instance'
  | _ => registry.Free instance'.launcherPid → threw (host.getProctable instance') = false

def LeavesNoTrace (registry : Registry) (request : MPIRRequest) : Prop :=
  ∀ instance', request.obtain host registry = .ok instance' registry → request.Settles host registry instance'

def Traceless (registry : Registry) (act : Op α) : Prop :=
  ∀ message registry', act registry = .error message registry' → SameTables registry registry'

theorem traceless_extract (positive : 0 < instance'.launcherPid.toInt) : Traceless registry (extractMPIRResult host instance') ↔
      (registry.Free instance'.launcherPid → threw (host.getProctable instance') = false) := by
  by_cases free : registry.Free instance'.launcherPid
  · cases read : host.getProctable instance' with
    | ok proctable =>
      obtain ⟨result,registry',done⟩ := extract_read host free read
      refine iff_of_true (fun message after failed => ?_) fun _ => rfl
      rw [done] at failed
      cases failed
    | error reason =>
      refine iff_of_false (fun traceless => ?_) fun fine => Bool.noConfusion (fine free)
      exact added_differs free positive (traceless _ _ (extract_unread host free read)).pidIdMap
  · refine iff_of_true (fun message after failed => ?_) fun known => absurd known free
    obtain ⟨_,refused⟩ := extract_taken host free
    rw [refused] at failed
    cases failed
    exact sameTables_refl

theorem traceless_then (returns : ∀ value s, Programs.Returned (next value s)) :
    Traceless registry (act >>= next) ↔ Traceless registry act := by
  have same (message : Bytes) (registry' : Registry) :
      (act >>= next) registry = .error message registry' ↔ act registry = .error message registry' := by
    refine bind_error.trans ⟨fun either => either.resolve_right ?_,.inl⟩
    intro ⟨value,middle,_,failed⟩
    have wrong := returns value middle
    rwa [failed] at wrong
  simp only [Traceless,same]

-- The launch is noted before anything can fail.
theorem launch_adopt : (MPIRRequest.launchMPIR data).adopt host instance' registry = (attempt id (host.runToMPIRBreakpoint instance') >>=
    fun _ => extractMPIRResult host instance' >>= fun mpirResult => do
      modify fun registry => {registry with launchingInstance := none}.cleanUp mpirResult.launcherPid
      return mpirResult) {registry with launchingInstance := some instance'} := rfl

theorem traceless_launch (positive : 0 < instance'.launcherPid.toInt) :
    Traceless registry ((MPIRRequest.launchMPIR data).adopt host instance') ↔
      (MPIRRequest.launchMPIR data).Settles host registry instance' := by
  let noted : Registry := {registry with launchingInstance := some instance'}
  -- Free and the tables but one are those of the registry with the launch noted in it.
  have untouched : SameTables registry noted ↔ registry.launchingInstance = some instance' :=
    ⟨fun same => same.launchingInstance.symm,fun known => ⟨rfl,rfl,rfl,rfl,known.symm⟩⟩
  unfold Traceless Settles
  rw [launch_adopt]
  cases stopped : host.runToMPIRBreakpoint instance' with
  | error reason =>
    rw [if_neg (fun both => Bool.noConfusion both.1),← untouched]
    exact ⟨fun traceless => traceless _ _ rfl,fun same message registry' failed => by cases failed; exact same⟩
  | ok done =>
    have past : ∀ k : Unit → Op MPIRResult, (attempt id (.ok done) >>= k) noted = k done noted := fun _ => rfl
    rw [past]
    by_cases free : registry.Free instance'.launcherPid
    · rw [if_pos ⟨rfl,free⟩]
      have free' : noted.Free instance'.launcherPid := free
      cases read : host.getProctable instance' with
      | ok proctable =>
        obtain ⟨result,registry',extracted⟩ := extract_read host free' read
        refine iff_of_true (fun message after failed => ?_) rfl
        rw [bind_after extracted] at failed
        cases failed
      | error reason =>
        refine iff_of_false (fun traceless => ?_) Bool.noConfusion
        have same := traceless _ _ (bind_stopped (extract_unread host free' read))
        exact added_differs free' positive same.pidIdMap
    · rw [if_neg (fun both => free both.2),← untouched]
      have taken' : ¬ noted.Free instance'.launcherPid := free
      obtain ⟨message,refused⟩ := extract_taken host taken'
      rw [bind_stopped refused]
      exact ⟨fun traceless => traceless _ _ rfl,fun same message registry' failed => by cases failed; exact same⟩

theorem traceless_adopt (positive : 0 < instance'.launcherPid.toInt) {request : MPIRRequest} :
    Traceless registry (request.adopt host instance') ↔ request.Settles host registry instance' := by
  cases request with
  | launchMPIR data => exact traceless_launch host positive
  | attachMPIR launcherName launcherPid => exact traceless_extract host positive
  | launchMPIRShim shim data =>
    refine Iff.trans (traceless_then ?_) (traceless_extract host positive)
    exact fun _ _ => trivial

theorem failed_launch_exact (sound : host.Sound) (registry : Registry) (request : MPIRRequest) :
    Traceless registry (request.perform host) ↔ request.LeavesNoTrace host registry := by
  rw [perform_parts]
  cases obtained : request.obtain host registry with
  | error reason registry' =>
    have same := silent_error (obtain_silent host) obtained
    subst same
    refine iff_of_true (fun message after failed => ?_) fun instance' done => ?_
    · rw [bind_stopped obtained] at failed
      cases failed
      exact sameTables_refl
    · rw [obtained] at done
      cases done
  | ok instance' registry' =>
    have same := silent_ok (obtain_silent host) obtained
    subst same
    have positive := obtain_positive host sound obtained
    have onward : Traceless registry' (request.obtain host >>= fun instance' => request.adopt host instance') ↔
        Traceless registry' (request.adopt host instance') := by
      unfold Traceless
      rw [bind_after obtained]
    rw [onward,traceless_adopt host positive]
    constructor
    · intro settles other done
      rw [obtained] at done
      cases done
      exact settles
    · intro clean
      exact clean instance' obtained

end MPIRRequest

def tableless : Host := {bareHost with
  findPath := some
  attach := fun _ pid => if 0 < pid.toInt then .ok ⟨pid⟩ else .error []}

theorem tableless_sound : tableless.Sound := by
  constructor
  · intro _ _ _ started
    cases started
  · intro _ pid instance' attached
    simp only [tableless] at attached
    split at attached
    · rename_i positive
      cases attached
      exact positive
    · cases attached

theorem failed_launch_exact_known : MPIRRequest.Traceless (Registry.start.added 7) ((MPIRRequest.attachMPIR [97] 7).perform tableless) := by
  refine (MPIRRequest.failed_launch_exact tableless tableless_sound (Registry.start.added 7) (.attachMPIR [97] 7)).mpr ?_
  intro instance' attached free
  cases attached
  exact absurd free (by decide)

-- The launcher has got a number, so that the next try is refused as a duplicate.
theorem failed_attach_blocks : ¬ MPIRRequest.Traceless Registry.start ((MPIRRequest.attachMPIR [97] 7).perform tableless) ∧
    (MPIRRequest.attachMPIR [97] 7).perform {tableless with getProctable := fun _ => .ok []}
        (after ((MPIRRequest.attachMPIR [97] 7).perform tableless Registry.start)) =
      .error (ascii "duplicate app pid: 7") (Registry.start.added 7) := by
  refine ⟨fun traceless => ?_,rfl⟩
  have same := traceless [] (Registry.start.added 7) rfl
  exact absurd same.pidIdMap (by decide)

end CommonTools.FeDaemon
