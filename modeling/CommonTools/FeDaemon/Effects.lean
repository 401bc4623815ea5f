import CommonTools.FeDaemon.FailedLaunch

namespace CommonTools.FeDaemon
open OrderedMaps Programs Registry

inductive Effect where
  | idle
  | registers (appPid : Pid)
  | adopts (instance' : MPIRInstance) (cleanUp : Bool)
  | tracks (appId : Id) (utilPid : Pid) (signum : Int)
  | deregisters (appId : Id) (appPid : Pid)
  | releases (appId : Id) (appPid : Pid)
  | drops (mpirId : Id)

namespace Registry

def track (registry : Registry) (appId : Id) (utilPid : Pid) (signum : Int) : Registry :=
  {registry with
    utilMap := registry.utilMap.insert appId (((registry.utilMap.find appId).getD .empty).insert utilPid signum)}

def adopt (registry : Registry) (instance' : MPIRInstance) : Registry :=
  (registry.added instance'.launcherPid).emplaceMPIR (registry.lastId + 1) instance'

def deregister (registry : Registry) (appId : Id) (appPid : Pid) : Registry :=
  ((registry.eraseApp appId appPid).eraseUtils appId).terminateApp appPid

def release (registry : Registry) (appId : Id) (appPid : Pid) : Registry :=
  {registry.eraseApp appId appPid with appCleanupList := registry.appCleanupList.erase appPid}.eraseUtils appId

def launching (registry : Registry) (instance' : Option MPIRInstance) : Registry :=
  {registry with launchingInstance := instance'}

theorem terminateApp_eq {registry : Registry} : registry.terminateApp appPid = {registry with
      appCleanupList := registry.appCleanupList.erase appPid
      signals := registry.signals ++ (registry.appCleanupList.find appPid).elim [] fun _ => [(appPid,SIGTERM)]} := by
  unfold terminateApp
  split
  · rename_i absent
    rw [OrderedMap.erase_absent absent,absent,Option.elim_none,List.append_nil]
  · rename_i found
    rw [found]
    rfl

end Registry

namespace Effect

def apply (registry : Registry) : Effect → Registry
  | .idle => registry
  | .registers appPid => registry.added appPid
  | .adopts instance' cleanUp => if cleanUp then (registry.adopt instance').cleanUp instance'.launcherPid else registry.adopt instance'
  | .tracks appId utilPid signum => registry.track appId utilPid signum
  | .deregisters appId appPid => registry.deregister appId appPid
  | .releases appId appPid => registry.release appId appPid
  | .drops mpirId => registry.eraseMPIR mpirId

def Fits (registry : Registry) : Effect → Prop
  | .idle => True
  | .registers appPid => registry.Free appPid
  | .adopts instance' _ => registry.Free instance'.launcherPid
  | .tracks appId utilPid _ => registry.Registered appId ∧ 0 < utilPid.toInt
  | .deregisters appId appPid => registry.idPidMap.find appId = some appPid
  | .releases appId appPid => registry.idPidMap.find appId = some appPid
  | .drops mpirId => (registry.mpirMap.find mpirId).isSome = true

end Effect

def ran (act : Op α) (registry : Registry) : Option α :=
  match act registry with
  | .ok value _ => some value
  | .error _ _ => none

theorem ran_some : ran act registry = some value ↔ ∃ registry', act registry = .ok value registry' := by
  unfold ran
  cases act registry <;> simp

section Deciding

instance (registry : Registry) (appId : Id) : Decidable (registry.Registered appId) := inferInstanceAs (Decidable (_ = true))

def Registry.registering (registry : Registry) (appPid : Pid) : Effect :=
  if registry.Free appPid then .registers appPid else .idle

def Registry.tracking (registry : Registry) (appId : Id) (utilPid : Pid) (signum : Int) : Effect :=
  if registry.Registered appId ∧ 0 < utilPid.toInt then .tracks appId utilPid signum else .idle

variable (host : Host) (registry : Registry)

def MPIRRequest.cleansUp : MPIRRequest → Bool
  | .attachMPIR _ _ => false
  | _ => true

def MPIRRequest.reaches (instance' : MPIRInstance) : MPIRRequest → Bool
  | .launchMPIR _ => !threw (host.runToMPIRBreakpoint instance')
  | _ => true

def MPIRRequest.adoption (request : MPIRRequest) (instance' : MPIRInstance) : Effect :=
  if request.reaches host instance' = true ∧ registry.Free instance'.launcherPid then
    if threw (host.getProctable instance') then .registers instance'.launcherPid else .adopts instance' request.cleansUp
  else .idle

def MPIRRequest.effect (request : MPIRRequest) : Effect :=
  (ran (request.obtain host) registry).elim .idle (request.adoption host registry)

def Registry.dropping (mpirId : Id) (done : Bool) : Effect :=
  if (registry.mpirMap.find mpirId).isSome = true ∧ done = true then .drops mpirId else .idle

def Command.effect : Command → Effect
  | .forkExecvpApp data => (ran (forkExec host data) registry).elim .idle registry.registering
  | .forkExecvpUtil appId _ data => (ran (forkExec host data) registry).elim .idle fun utilPid => registry.tracking appId utilPid SIGTERM
  | .launchMPIR data => (MPIRRequest.launchMPIR data).effect host registry
  | .launchMPIRShim shim data => (MPIRRequest.launchMPIRShim shim data).effect host registry
  | .attachMPIR launcherName launcherPid => (MPIRRequest.attachMPIR launcherName launcherPid).effect host registry
  | .readStringMPIR _ _ => .idle
  | .releaseMPIR mpirId => registry.dropping mpirId true
  | .waitMPIR mpirId => registry.dropping mpirId true
  | .terminateMPIR mpirId =>
    registry.dropping mpirId ((registry.mpirMap.find mpirId).any fun instance' => !threw (host.terminate instance'))
  | .registerApp appPid => registry.registering appPid
  | .registerUtil appId utilPid => registry.tracking appId utilPid SIGTERM
  | .registerUtilWithSigkill appId utilPid => registry.tracking appId utilPid SIGKILL
  | .deregisterApp appId => (registry.idPidMap.find appId).elim .idle (.deregisters appId)
  | .releaseApp appId => (registry.idPidMap.find appId).elim .idle (.releases appId)
  | .checkApp _ => .idle
  | .shutdown => .idle

def MPIRRequest.command : MPIRRequest → Command
  | .launchMPIR data => .launchMPIR data
  | .launchMPIRShim shim data => .launchMPIRShim shim data
  | .attachMPIR launcherName launcherPid => .attachMPIR launcherName launcherPid

def Command.appPid : Command → Option Pid
  | .forkExecvpApp data => ran (forkExec host data) registry
  | .registerApp appPid => some appPid
  | .launchMPIR data => (ran ((MPIRRequest.launchMPIR data).obtain host) registry).map MPIRInstance.launcherPid
  | .launchMPIRShim shim data => (ran ((MPIRRequest.launchMPIRShim shim data).obtain host) registry).map MPIRInstance.launcherPid
  | .attachMPIR launcherName launcherPid =>
    (ran ((MPIRRequest.attachMPIR launcherName launcherPid).obtain host) registry).map MPIRInstance.launcherPid
  | _ => none

def Command.utilPid : Command → Option (Id × Pid)
  | .forkExecvpUtil appId _ data => (ran (forkExec host data) registry).map fun utilPid => (appId,utilPid)
  | .registerUtil appId utilPid => some (appId,utilPid)
  | .registerUtilWithSigkill appId utilPid => some (appId,utilPid)
  | _ => none

def Command.Causes (command : Command) : Effect → Prop
  | .idle => True
  | .registers appPid => registry.Free appPid ∧ command.appPid host registry = some appPid
  | .adopts instance' cleanUp =>
    registry.Free instance'.launcherPid ∧ command.appPid host registry = some instance'.launcherPid ∧
      ∃ request : MPIRRequest, command = request.command ∧ ran (request.obtain host) registry = some instance' ∧
        cleanUp = request.cleansUp
  | .tracks appId utilPid _ => registry.Registered appId ∧ 0 < utilPid.toInt ∧ command.utilPid host registry = some (appId,utilPid)
  | .deregisters appId appPid => command = .deregisterApp appId ∧ registry.idPidMap.find appId = some appPid
  | .releases appId appPid => command = .releaseApp appId ∧ registry.idPidMap.find appId = some appPid
  | .drops mpirId => (registry.mpirMap.find mpirId).isSome = true

end Deciding

def Command.type : Command → ReqType
  | .forkExecvpApp _ => .ForkExecvpApp
  | .forkExecvpUtil _ _ _ => .ForkExecvpUtil
  | .launchMPIR _ => .LaunchMPIR
  | .launchMPIRShim _ _ => .LaunchMPIRShim
  | .attachMPIR _ _ => .AttachMPIR
  | .readStringMPIR _ _ => .ReadStringMPIR
  | .releaseMPIR _ => .ReleaseMPIR
  | .waitMPIR _ => .WaitMPIR
  | .terminateMPIR _ => .TerminateMPIR
  | .registerApp _ => .RegisterApp
  | .registerUtil _ _ => .RegisterUtil
  | .registerUtilWithSigkill _ _ => .RegisterUtilWithSigkill
  | .deregisterApp _ => .DeregisterApp
  | .releaseApp _ => .ReleaseApp
  | .checkApp _ => .CheckApp
  | .shutdown => .Shutdown

section Operations

theorem after_ran {act : Op α} (silent : Silent act) (next : α → Op β) (registry : Registry) :
    after ((act >>= next) registry) = (ran act registry).elim registry fun value => after (next value registry) := by
  cases done : act registry with
  | ok value registry' =>
    have same := silent_ok silent done
    subst same
    rw [bind_after done,ran,done]
    rfl
  | error message registry' =>
    have same := silent_error silent done
    subst same
    rw [bind_stopped done,ran,done]
    rfl

theorem after_registerAppPID : after (registerAppPID appPid registry) = (registry.registering appPid).apply registry := by
  unfold registering
  split
  · rename_i free
    rw [registerAppPID_free free]
    rfl
  · rename_i taken
    rw [registerAppPID_taken taken]
    rfl

theorem after_registerUtilPID :
    after (registerUtilPID appId utilPid signum registry) = (registry.tracking appId utilPid signum).apply registry := by
  unfold registerUtilPID
  rw [get_after]
  cases found : registry.idPidMap.find appId with
  | none =>
    have nothing : registry.tracking appId utilPid signum = .idle := if_neg fun both => by simp [Registry.Registered,found] at both
    rw [nothing]
    rfl
  | some appPid =>
    have known : registry.Registered appId := by simp [Registry.Registered,found]
    by_cases positive : 0 < utilPid.toInt
    · have tracks : registry.tracking appId utilPid signum = .tracks appId utilPid signum := if_pos ⟨known,positive⟩
      simp only [tracks,if_pos positive]
      rfl
    · have nothing : registry.tracking appId utilPid signum = .idle := if_neg fun both => positive both.2
      simp only [nothing,if_neg positive]
      rfl

theorem after_deregisterAppID :
    after (deregisterAppID appId registry) = ((registry.idPidMap.find appId).elim .idle (Effect.deregisters appId)).apply registry := by
  unfold deregisterAppID
  rw [get_after]
  cases registry.idPidMap.find appId <;> rfl

theorem after_releaseAppID (appId : Id) (registry : Registry) :
    after (releaseAppID appId registry) = ((registry.idPidMap.find appId).elim .idle (Effect.releases appId)).apply registry := by
  unfold releaseAppID
  rw [get_after]
  cases registry.idPidMap.find appId <;> rfl

variable (host : Host)

theorem after_checkAppID : after (checkAppID host appId registry) = registry := by
  unfold checkAppID
  rw [get_after]
  cases registry.idPidMap.find appId <;> rfl

theorem after_readStringMPIR : after (readStringMPIR host mpirId name registry) = registry := by
  unfold readStringMPIR
  rw [get_after]
  cases registry.mpirMap.find mpirId with
  | none => rfl
  | some instance' => cases read : host.readStringAt instance' name <;> simp only [read] <;> rfl

theorem after_releaseMPIR : after (releaseMPIR mpirId registry) = (registry.dropping mpirId true).apply registry := by
  unfold releaseMPIR dropping
  rw [get_after]
  cases registry.mpirMap.find mpirId <;> rfl

theorem after_waitMPIR : after (waitMPIR host mpirId registry) = (registry.dropping mpirId true).apply registry := by
  unfold waitMPIR dropping
  rw [get_after]
  cases registry.mpirMap.find mpirId with
  | none => rfl
  | some instance' => cases host.waitExit mpirId <;> simp only [modify_after] <;> rfl

theorem after_terminateMPIR : after (terminateMPIR host mpirId registry) = (registry.dropping mpirId
      ((registry.mpirMap.find mpirId).any fun instance' => !threw (host.terminate instance'))).apply registry := by
  unfold terminateMPIR dropping
  rw [get_after]
  cases registry.mpirMap.find mpirId with
  | none => rfl
  | some instance' => cases ended : host.terminate instance' <;> simp only [Option.any_some,ended] <;> rfl

theorem after_forkExecvpUtil {appId : Id} {runMode : BitVec 32} {data : LaunchData} {registry : Registry} :
    after (forkExecvpUtil host appId runMode data registry) = ((ran (forkExec host data) registry).elim .idle
      fun utilPid => registry.tracking appId utilPid SIGTERM).apply registry := by
  unfold forkExecvpUtil
  rw [after_ran (MPIRRequest.forkExec_silent host data)]
  cases ran (forkExec host data) registry with
  | none => rfl
  | some utilPid =>
    rw [Option.elim_some,Option.elim_some,← after_registerUtilPID]
    cases tracked : registerUtilPID appId utilPid SIGTERM registry with
    | error message registry' => rw [bind_stopped tracked]; rfl
    | ok done registry' =>
      rw [bind_after tracked]
      split
      · cases host.waitpid utilPid <;> rfl
      · rfl

theorem emplaceMPIR_launching (registry : Registry) :
    (registry.launching other).emplaceMPIR mpirId instance' = (registry.emplaceMPIR mpirId instance').launching other := by
  unfold emplaceMPIR launching
  cases registry.mpirMap.find mpirId <;> rfl

theorem extract_adopts (free : Registry.Free registry instance'.launcherPid) (read : host.getProctable instance' = .ok proctable) :
    ∃ result, extractMPIRResult host instance' registry = .ok result (registry.adopt instance') ∧
      result.launcherPid = instance'.launcherPid := by
  rw [extractMPIRResult,bind_after (registerAppPID_free free),read]
  exact ⟨_,rfl,rfl⟩

section Adopting
variable (instance' : MPIRInstance) (registry : Registry)

theorem after_attach : after (extractMPIRResult host instance' registry) =
      ((MPIRRequest.attachMPIR launcherName launcherPid).adoption host registry instance').apply registry := by
  unfold MPIRRequest.adoption MPIRRequest.reaches
  by_cases free : registry.Free instance'.launcherPid
  · rw [if_pos ⟨rfl,free⟩]
    cases read : host.getProctable instance' with
    | error reason => rw [extract_unread host free read]; rfl
    | ok proctable =>
      obtain ⟨result,extracted,_⟩ := extract_adopts host free read
      rw [extracted]
      rfl
  · rw [if_neg fun both => free both.2]
    obtain ⟨_,refused⟩ := extract_taken host free
    rw [refused]
    rfl

theorem after_shim : after ((MPIRRequest.launchMPIRShim shim data).adopt host instance' registry) =
      ((MPIRRequest.launchMPIRShim shim data).adoption host registry instance').apply registry := by
  have parts : (MPIRRequest.launchMPIRShim shim data).adopt host instance' =
      extractMPIRResult host instance' >>= fun mpirResult => do
        modify (·.cleanUp mpirResult.launcherPid)
        return mpirResult := rfl
  rw [parts]
  unfold MPIRRequest.adoption MPIRRequest.reaches
  by_cases free : registry.Free instance'.launcherPid
  · rw [if_pos ⟨rfl,free⟩]
    cases read : host.getProctable instance' with
    | error reason => rw [bind_stopped (extract_unread host free read)]; rfl
    | ok proctable =>
      obtain ⟨result,extracted,same⟩ := extract_adopts host free read
      rw [bind_after extracted,same]
      rfl
  · rw [if_neg fun both => free both.2]
    obtain ⟨_,refused⟩ := extract_taken host free
    rw [bind_stopped refused]
    rfl

-- The instance is forgotten when all went well.
theorem after_launch : ∃ launching, after ((MPIRRequest.launchMPIR data).adopt host instance' registry) =
    (((MPIRRequest.launchMPIR data).adoption host registry instance').apply registry).launching launching := by
  let noted : Registry := {registry with launchingInstance := some instance'}
  rw [MPIRRequest.launch_adopt]
  unfold MPIRRequest.adoption MPIRRequest.reaches
  cases host.runToMPIRBreakpoint instance' with
  | error reason => exact ⟨some instance',rfl⟩
  | ok done =>
    have past : ∀ next : Unit → Op MPIRResult, (attempt id (.ok done) >>= next) noted = next done noted := fun _ => rfl
    rw [past]
    by_cases free : registry.Free instance'.launcherPid
    · rw [if_pos ⟨rfl,free⟩]
      have free' : noted.Free instance'.launcherPid := free
      cases read : host.getProctable instance' with
      | error reason =>
        rw [bind_stopped (extract_unread host free' read)]
        exact ⟨some instance',rfl⟩
      | ok proctable =>
        obtain ⟨result,extracted,same⟩ := extract_adopts host free' read
        have adopted : noted.adopt instance' = (registry.adopt instance').launching (some instance') :=
          emplaceMPIR_launching (registry.added instance'.launcherPid)
        rw [bind_after extracted,same,adopted]
        exact ⟨none,rfl⟩
    · rw [if_neg fun both => free both.2]
      have taken : ¬ noted.Free instance'.launcherPid := free
      obtain ⟨_,refused⟩ := extract_taken host taken
      rw [bind_stopped refused]
      exact ⟨some instance',rfl⟩

end Adopting

theorem after_perform (request : MPIRRequest) (registry : Registry) : ∃ launching,
    after (request.perform host registry) = ((request.effect host registry).apply registry).launching launching := by
  rw [MPIRRequest.perform_parts,after_ran (MPIRRequest.obtain_silent host)]
  unfold MPIRRequest.effect
  cases ran (request.obtain host) registry with
  | none => exact ⟨registry.launchingInstance,rfl⟩
  | some instance' =>
    cases request with
    | launchMPIR data => exact after_launch host instance' registry
    | launchMPIRShim shim data => exact ⟨_,after_shim host instance' registry⟩
    | attachMPIR launcherName launcherPid => exact ⟨_,after_attach host instance' registry⟩

theorem operate_effect {command : Command} {registry : Registry} : ∃ launching,
    after (operate host command.type command registry) = ((command.effect host registry).apply registry).launching launching := by
  cases command with
  | launchMPIR data => exact after_perform host (.launchMPIR data) registry
  | launchMPIRShim shim data => exact after_perform host (.launchMPIRShim shim data) registry
  | attachMPIR launcherName launcherPid => exact after_perform host (.attachMPIR launcherName launcherPid) registry
  | forkExecvpApp data =>
    have forked := after_ran (MPIRRequest.forkExec_silent host data) registerAppPID registry
    refine ⟨registry.launchingInstance,forked.trans ?_⟩
    change _ = (((ran (forkExec host data) registry).elim .idle registry.registering).apply registry).launching _
    cases ran (forkExec host data) registry with
    | none => rfl
    | some appPid =>
      refine after_registerAppPID.trans ?_
      rw [Option.elim_some,registering]
      split <;> rfl
  | forkExecvpUtil appId runMode data => exact ⟨_,after_forkExecvpUtil host⟩
  | readStringMPIR mpirId name => exact ⟨_,after_readStringMPIR host⟩
  | releaseMPIR mpirId => exact ⟨_,after_map.trans after_releaseMPIR⟩
  | waitMPIR mpirId => exact ⟨_,after_waitMPIR host⟩
  | terminateMPIR mpirId => exact ⟨_,after_map.trans (after_terminateMPIR host)⟩
  | registerApp appPid => exact ⟨_,after_registerAppPID⟩
  | registerUtil appId utilPid => exact ⟨_,after_map.trans after_registerUtilPID⟩
  | registerUtilWithSigkill appId utilPid => exact ⟨_,after_map.trans after_registerUtilPID⟩
  | deregisterApp appId => exact ⟨_,after_map.trans after_deregisterAppID⟩
  | releaseApp appId => exact ⟨_,after_map.trans (after_releaseAppID appId registry)⟩
  | checkApp appId => exact ⟨_,after_checkAppID host⟩
  | shutdown => exact ⟨_,rfl⟩

section Elimination
variable {P : Effect → Prop} {registry : Registry}

theorem registering_elim (idle : P .idle) (registers : registry.Free appPid → P (.registers appPid)) : P (registry.registering appPid) := by
  unfold registering
  split
  · rename_i free; exact registers free
  · exact idle

theorem tracking_elim (idle : P .idle) (tracks : registry.Registered appId → 0 < utilPid.toInt → P (.tracks appId utilPid signum)) :
    P (registry.tracking appId utilPid signum) := by
  unfold tracking
  split
  · rename_i both; exact tracks both.1 both.2
  · exact idle

theorem dropping_elim (idle : P .idle) (drops : (registry.mpirMap.find mpirId).isSome = true → P (.drops mpirId)) :
    P (registry.dropping mpirId done) := by
  unfold dropping
  split
  · rename_i both; exact drops both.1
  · exact idle

theorem found_elim (idle : P .idle) (some' : ∀ value, found = some value → P (effect value)) : P (found.elim .idle effect) := by
  cases found with
  | none => exact idle
  | some value => exact some' value rfl

theorem perform_elim {request : MPIRRequest} (idle : P .idle)
    (registers : ∀ instance', ran (request.obtain host) registry = some instance' → registry.Free instance'.launcherPid →
      P (.registers instance'.launcherPid))
    (adopts : ∀ instance', ran (request.obtain host) registry = some instance' → registry.Free instance'.launcherPid →
      P (.adopts instance' request.cleansUp)) : P (request.effect host registry) := by
  refine found_elim idle fun instance' obtained => ?_
  unfold MPIRRequest.adoption
  split
  · rename_i both
    split
    · exact registers instance' obtained both.2
    · exact adopts instance' obtained both.2
  · exact idle

end Elimination

theorem perform_causes {request : MPIRRequest} : request.command.Causes host registry (request.effect host registry) := by
  have named : ∀ instance', ran (request.obtain host) registry = some instance' →
      request.command.appPid host registry = some instance'.launcherPid := by
    intro instance' obtained
    cases request <;> simp only [MPIRRequest.command,Command.appPid,obtained] <;> rfl
  exact perform_elim host trivial (fun instance' obtained free => ⟨free,named instance' obtained⟩)
    fun instance' obtained free => ⟨free,named instance' obtained,request,rfl,obtained,rfl⟩

theorem effect_causes (command : Command) (registry : Registry) : command.Causes host registry (command.effect host registry) := by
  cases command with
  | forkExecvpApp data => exact found_elim trivial fun appPid forked => registering_elim trivial fun free => ⟨free,forked⟩
  | forkExecvpUtil appId runMode data =>
    refine found_elim trivial fun utilPid forked => tracking_elim trivial fun known positive => ⟨known,positive,?_⟩
    simp [Command.utilPid,forked]
  | launchMPIR data | launchMPIRShim shim data | attachMPIR launcherName launcherPid => exact perform_causes host
  | releaseMPIR mpirId | waitMPIR mpirId | terminateMPIR mpirId => exact dropping_elim trivial id
  | registerApp appPid => exact registering_elim trivial fun free => ⟨free,rfl⟩
  | registerUtil appId utilPid | registerUtilWithSigkill appId utilPid =>
    exact tracking_elim trivial fun known positive => ⟨known,positive,rfl⟩
  | deregisterApp appId | releaseApp appId => exact found_elim trivial fun appPid found => ⟨rfl,found⟩
  | _ => trivial

theorem effect_fits {command : Command} : (command.effect host registry).Fits registry := by
  have caused := effect_causes host command registry
  cases effect : command.effect host registry with
  | idle => trivial
  | drops mpirId => rw [effect] at caused; exact caused
  | tracks appId utilPid signum => rw [effect] at caused; exact ⟨caused.1,caused.2.1⟩
  | deregisters appId appPid | releases appId appPid => rw [effect] at caused; exact caused.2
  | _ => rw [effect] at caused; exact caused.1

end Operations

end CommonTools.FeDaemon
