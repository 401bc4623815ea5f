import Mathlib.Order.Basic
import CommonTools.Library.OrderedMaps
import CommonTools.Library.Programs
import CommonTools.FeDaemon.Readers

namespace CommonTools.FeDaemon
open Numerals OrderedMaps Programs

instance wordOrder : LinearOrder (BitVec 32) := LinearOrder.lift' BitVec.toNat fun _ _ same => BitVec.eq_of_toNat_eq same

def SIGKILL : Int := 9
def SIGTERM : Int := 15

abbrev ProcSet := OrderedMap Pid Int

structure MPIRInstance where
  launcherPid : Pid
  deriving DecidableEq

structure Registry where
  lastId : Id
  pidIdMap : OrderedMap Pid Id
  idPidMap : OrderedMap Id Pid
  appCleanupList : ProcSet
  utilMap : OrderedMap Id ProcSet
  mpirMap : OrderedMap Id MPIRInstance
  launchingInstance : Option MPIRInstance
  signals : List (Pid × Int)
  deriving DecidableEq

def Registry.start : Registry := ⟨0,.empty,.empty,.empty,.empty,.empty,none,[]⟩

structure Host where
  findPath : Bytes → Option Bytes
  fork : Except Bytes {pid : Pid // 0 < pid.toInt}
  waitpid : Pid → Except Bytes (Option Int)
  alive : Pid → Bool
  zombie : Pid → Bool
  start : Bytes → LaunchData → Except Bytes MPIRInstance
  runToMPIRBreakpoint : MPIRInstance → Except Bytes Unit
  attach : Bytes → Pid → Except Bytes MPIRInstance
  readStringAt : MPIRInstance → Bytes → Except Bytes CStr
  getProctable : MPIRInstance → Except Bytes (List ProctableElem)
  waitExit : Id → Except Bytes Int
  terminate : MPIRInstance → Except Bytes Unit
  shimToken : Bytes
  mkdir : Bytes → Except Bytes Unit
  symlink : Bytes → Bytes → Except Bytes Unit
  path : Option Bytes
  parentPath : Bytes → Bytes
  basename : Bytes → Bytes
  shimPipe : Int × Int
  descriptors : Option Stdio → Int × Int × Int
  shimPid : Option Pid

def bareHost : Host where
  findPath _ := none
  fork := .error []
  waitpid _ := .error []
  alive _ := false
  zombie _ := false
  start _ _ := .error []
  runToMPIRBreakpoint _ := .error []
  attach _ _ := .error []
  readStringAt _ _ := .error []
  getProctable _ := .error []
  waitExit _ := .error []
  terminate _ := .error []
  shimToken := []
  mkdir _ := .error []
  symlink _ _ := .error []
  path := none
  parentPath path := path
  basename path := path
  shimPipe := (0,0)
  descriptors _ := (0,0,0)
  shimPid := none

structure Host.Sound (host : Host) : Prop where
  started : ∀ launcherPath data instance', host.start launcherPath data = .ok instance' → 0 < instance'.launcherPid.toInt
  attached : ∀ launcherPath pid instance', host.attach launcherPath pid = .ok instance' → 0 < instance'.launcherPid.toInt

abbrev Op := EStateM Bytes Registry

def showInt (n : Int) : Bytes := if n < 0 then 45 :: decimal n.natAbs else decimal n.natAbs

def attempt (what : Bytes → Bytes) : Except Bytes α → Op α
  | .ok value => pure value
  | .error reason => throw (what reason)

def newId : Op Id := modifyGet fun registry => (registry.lastId + 1,{registry with lastId := registry.lastId + 1})

def registerAppPID (appPid : Pid) : Op Id := do
  if appPid = 0 then
    let appId ← newId
    modify fun registry => {registry with idPidMap := registry.idPidMap.insert appId 0}
    return appId
  else
    match (← get).pidIdMap.find appPid with
    | none =>
      let appId ← newId
      modify fun registry => {registry with
        pidIdMap := registry.pidIdMap.insert appPid appId
        idPidMap := registry.idPidMap.insert appId appPid}
      return appId
    | some _ => throw (ascii "duplicate app pid: " ++ showInt appPid.toInt)

def invalidAppId (appId : Id) : Bytes := ascii "invalid app id: " ++ showInt appId.toInt

def registerUtilPID (appId : Id) (utilPid : Pid) (terminateSignum : Int) : Op Unit := do
  match (← get).idPidMap.find appId with
  | none => throw (invalidAppId appId)
  | some _ =>
    if 0 < utilPid.toInt then
      modify fun registry => {registry with
        utilMap := registry.utilMap.insert appId (((registry.utilMap.find appId).getD .empty).insert utilPid terminateSignum)}
    else throw (ascii "invalid util pid: " ++ showInt utilPid.toInt)

-- Destroying a set ends what is in it.
def Registry.eraseUtils (registry : Registry) (appId : Id) : Registry :=
  {registry with
    utilMap := registry.utilMap.erase appId
    signals := registry.signals ++ ((registry.utilMap.find appId).getD .empty).entries}

def Registry.eraseApp (registry : Registry) (appId : Id) (appPid : Pid) : Registry :=
  {registry with
    idPidMap := registry.idPidMap.erase appId
    pidIdMap := if 0 < appPid.toInt then registry.pidIdMap.erase appPid else registry.pidIdMap}

def Registry.terminateApp (registry : Registry) (appPid : Pid) : Registry :=
  match registry.appCleanupList.find appPid with
  | none => registry
  | some _ => {registry with
    appCleanupList := registry.appCleanupList.erase appPid
    signals := registry.signals ++ [(appPid,SIGTERM)]}

def deregisterAppID (appId : Id) : Op Unit := do
  match (← get).idPidMap.find appId with
  | none => throw (invalidAppId appId)
  | some appPid => modify fun registry => ((registry.eraseApp appId appPid).eraseUtils appId).terminateApp appPid

def releaseAppID (appId : Id) : Op Unit := do
  match (← get).idPidMap.find appId with
  | none => throw (invalidAppId appId)
  | some appPid =>
    modify fun registry =>
      let registry := registry.eraseApp appId appPid
      {registry with appCleanupList := registry.appCleanupList.erase appPid}.eraseUtils appId

def checkAppID (host : Host) (appId : Id) : Op Bool := do
  match (← get).idPidMap.find appId with
  | none => throw (invalidAppId appId)
  | some appPid => return appPid = 0 || host.alive appPid && !host.zombie appPid

section Processes
variable (host : Host)

def findPath (fileName : Bytes) : Op Bytes :=
  match host.findPath fileName with
  | some fullPath => pure fullPath
  | none => throw (fileName ++ ascii ": Could not locate in PATH.")

def checkEnv (envVarVal : Bytes) : Op Unit :=
  if 61 ∈ envVarVal then pure () else throw (ascii "failed to parse env var: " ++ envVarVal)

def forkExec (launchData : LaunchData) : Op Pid := do
  let _ ← findPath host launchData.filepath
  launchData.envList.forM checkEnv
  let forkedPid ← attempt (ascii "fork error: " ++ ·) host.fork
  return forkedPid.1

-- Failures to read either number are ignored.
def readJob (instance' : MPIRInstance) : BitVec 32 × BitVec 32 :=
  let number (name : String) : Option (BitVec 32) :=
    match host.readStringAt instance' (ascii name) with
    | .error _ => none
    | .ok text => match stoi text.1 with
      | .error _ => none
      | .ok (value,_) => some (BitVec.ofInt 32 value)
  match number "totalview_jobid" with
  | none => (0,0)
  | some jobId => (jobId,(number "totalview_stepid").getD 0)

-- std::unordered_map::emplace keeps an entry that is there.
def Registry.emplaceMPIR (registry : Registry) (mpirId : Id) (instance' : MPIRInstance) : Registry :=
  match registry.mpirMap.find mpirId with
  | some _ => registry
  | none => {registry with mpirMap := registry.mpirMap.insert mpirId instance'}

def extractMPIRResult (instance' : MPIRInstance) : Op MPIRResult := do
  let mpirId ← registerAppPID instance'.launcherPid
  let (jobId,stepId) := readJob host instance'
  let proctable ← attempt id (host.getProctable instance')
  modify (·.emplaceMPIR mpirId instance')
  return ⟨mpirId,instance'.launcherPid,jobId,stepId,proctable⟩

def Registry.cleanUp (registry : Registry) (launcherPid : Pid) : Registry :=
  {registry with appCleanupList := registry.appCleanupList.insert launcherPid SIGTERM}

def launcherFailed (argvList : List Bytes) (what : Bytes) : Bytes :=
  ascii "Failed to start launcher with the provided arguments: \n  " ++ argvList.flatMap (32 :: ·) ++
    ascii "\nEnsure that the launcher binary exists and " ++
    ascii "that all arguments (such as job constraints or project accounts) required " ++
    ascii "by your system are provided to the tool's launch command (" ++ what ++ ascii ")"

def launchMPIR (launchData : LaunchData) : Op MPIRResult := do
  let launcherPath ← findPath host launchData.filepath
  let launched ← attempt (launcherFailed launchData.argvList) (host.start launcherPath launchData)
  modify fun registry => {registry with launchingInstance := some launched}
  attempt id (host.runToMPIRBreakpoint launched)
  let mpirResult ← extractMPIRResult host launched
  modify fun registry => {registry with launchingInstance := none}.cleanUp mpirResult.launcherPid
  return mpirResult

def attachFailed (launcherPath : Bytes) (launcherPid : Pid) (what : Bytes) : Bytes :=
  ascii "Failed to attach to the launcher at '" ++ launcherPath ++ ascii "' under PID " ++ showInt launcherPid.toInt ++
    ascii ". Ensure that the launcher file exists at this path " ++
    ascii "and that the provided PID is present on your local system (" ++ what ++ ascii ")"

def attachMPIR (launcherPath : Bytes) (launcherPid : Pid) : Op MPIRResult := do
  let attached ← attempt (attachFailed launcherPath launcherPid) (host.attach launcherPath launcherPid)
  extractMPIRResult host attached

def notFound (action : String) (mpirId : Id) : Bytes := ascii (action ++ " mpir id not found: ") ++ showInt mpirId.toInt

def Registry.eraseMPIR (registry : Registry) (mpirId : Id) : Registry :=
  {registry with mpirMap := registry.mpirMap.erase mpirId}

def releaseMPIR (mpirId : Id) : Op Unit := do
  match (← get).mpirMap.find mpirId with
  | none => throw (notFound "release" mpirId)
  | some _ => modify (·.eraseMPIR mpirId)

-- The instance is waited for through an iterator that has just been erased.
def waitMPIR (mpirId : Id) : Op Bool := do
  match (← get).mpirMap.find mpirId with
  | none => throw (notFound "release" mpirId)
  | some _ =>
    modify (·.eraseMPIR mpirId)
    let rc ← attempt id (host.waitExit mpirId)
    return rc = 0

def readStringMPIR (mpirId : Id) (name : Bytes) : Op CStr := do
  match (← get).mpirMap.find mpirId with
  | none => throw (notFound "read string" mpirId)
  | some instance' => attempt id (host.readStringAt instance' name)

def terminateMPIR (mpirId : Id) : Op Unit := do
  match (← get).mpirMap.find mpirId with
  | none => throw (notFound "terminate" mpirId)
  | some instance' =>
    attempt id (host.terminate instance')
    modify (·.eraseMPIR mpirId)

end Processes

section Shim
variable (host : Host)

-- The directories of PATH up to that of the launcher script, the shim directory
-- behind them, and the rest; nothing when the script's is not among them.
def shimAfter (scriptDirectory shimDirectory : Bytes) : Nat → Bytes → Bytes → Option Bytes
  | 0,_,_ => none
  | _ + 1,_,[] => none
  | fuel + 1,passed,restPath =>
    let directory := restPath.takeWhile (· ≠ 58)
    let restPath := (restPath.dropWhile (· ≠ 58)).drop 1
    let passed := passed ++ directory ++ [58]
    if directory = scriptDirectory then some (passed ++ shimDirectory ++ [58] ++ restPath)
    else shimAfter scriptDirectory shimDirectory fuel passed restPath

def shimmedPath (launcherPath shimDirectory originalPath : Bytes) : Bytes :=
  match shimAfter (host.parentPath launcherPath) shimDirectory originalPath.length [] originalPath with
  | some path => path
  | none => shimDirectory ++ if originalPath = [] then [] else 58 :: originalPath

def setting (name : String) (value : Bytes) : Bytes := ascii (name ++ "=") ++ value

def shimLaunchData (shimData : ShimData) (launchData : LaunchData) (launcherPath shimDirectory : Bytes) : LaunchData :=
  let originalPath := host.path.getD []
  let (stdin,stdout,stderr) := host.descriptors launchData.stdio
  {launchData with
    envList := launchData.envList ++
      [setting "PATH" (shimmedPath host launcherPath shimDirectory originalPath),
        setting "CTI_MPIR_SHIM_INPUT_FD" (showInt host.shimPipe.1),
        setting "CTI_MPIR_SHIM_OUTPUT_FD" (showInt host.shimPipe.2),
        setting "CTI_MPIR_LAUNCHER_PATH" shimData.shimmedLauncherPath,
        setting "CTI_MPIR_ORIGINAL_PATH" originalPath,
        setting "CTI_MPIR_STDIN_FD" (showInt stdin),
        setting "CTI_MPIR_STDOUT_FD" (showInt stdout),
        setting "CTI_MPIR_STDERR_FD" (showInt stderr),
        setting "CTI_MPIR_SHIM_TOKEN" host.shimToken]
    argvList := launchData.argvList ++ [host.shimToken]}

def launchMPIRShim (shimData : ShimData) (launchData : LaunchData) : Op MPIRResult := do
  let shimDirectory := shimData.temporaryShimBinDir ++ host.shimToken
  let link := shimDirectory ++ ascii "/" ++ host.basename shimData.shimmedLauncherPath
  attempt (ascii "mkdir " ++ shimDirectory ++ ascii " failed: " ++ ·) (host.mkdir shimDirectory)
  attempt (ascii "link " ++ shimData.shimBinaryPath ++ ascii " -> " ++ link ++ ascii " failed: " ++ ·)
    (host.symlink shimData.shimBinaryPath link)
  let launcherPath ← findPath host launchData.filepath
  let _ ← forkExec host (shimLaunchData host shimData launchData launcherPath shimDirectory)
  match host.shimPid with
  | none => throw (ascii "MPIR shim failed to start. Set the CTI_DEBUG environment variable to 1 to show shim/wrapper output.")
  | some launcherPid =>
    let attached ← attempt (ascii "Failed attach to launcher under MPIR shim (" ++ · ++ ascii ")")
      (host.attach shimData.shimmedLauncherPath launcherPid)
    let mpirResult ← extractMPIRResult host attached
    modify (·.cleanUp mpirResult.launcherPid)
    return mpirResult

end Shim

section Handlers
variable (host : Host)

def forkExecvpApp (launchData : LaunchData) : Op Id := do
  let appPid ← forkExec host launchData
  registerAppPID appPid

-- A synchronous utility is waited for, and has to leave with zero.
def forkExecvpUtil (appId : Id) (runMode : BitVec 32) (launchData : LaunchData) : Op Bool := do
  let utilPid ← forkExec host launchData
  registerUtilPID appId utilPid SIGTERM
  if runMode = RunMode.synchronous.code then
    match host.waitpid utilPid with
    | .error _ => return false
    | .ok status => return status = some 0
  else return true

-- What each handler does once it has read its request. readCommand pairs a type
-- with its own command only.
def operate : (type : ReqType) → Command → Op (Answer type.family)
  | .ForkExecvpApp,.forkExecvpApp data => forkExecvpApp host data
  | .ForkExecvpUtil,.forkExecvpUtil appId runMode data => forkExecvpUtil host appId runMode data
  | .LaunchMPIR,.launchMPIR data => launchMPIR host data
  | .LaunchMPIRShim,.launchMPIRShim shim data => launchMPIRShim host shim data
  | .AttachMPIR,.attachMPIR launcherName launcherPid => do
    let launcherPath ← findPath host launcherName
    attachMPIR host launcherPath launcherPid
  | .ReadStringMPIR,.readStringMPIR mpirId name => readStringMPIR host mpirId name
  | .ReleaseMPIR,.releaseMPIR mpirId => do releaseMPIR mpirId; return true
  | .WaitMPIR,.waitMPIR mpirId => waitMPIR host mpirId
  | .TerminateMPIR,.terminateMPIR mpirId => do terminateMPIR host mpirId; return true
  | .RegisterApp,.registerApp appPid => registerAppPID appPid
  | .RegisterUtil,.registerUtil appId utilPid => do registerUtilPID appId utilPid SIGTERM; return true
  | .RegisterUtilWithSigkill,.registerUtilWithSigkill appId utilPid => do
    registerUtilPID appId utilPid SIGKILL; return true
  | .DeregisterApp,.deregisterApp appId => do deregisterAppID appId; return true
  | .ReleaseApp,.releaseApp appId => do releaseAppID appId; return true
  | .CheckApp,.checkApp appId => checkAppID host appId
  | .Shutdown,.shutdown => pure (true : Bool)
  | _,_ => throw []

end Handlers

def Registry.Registered (registry : Registry) (appId : Id) : Prop := (registry.idPidMap.find appId).isSome = true

def Registry.Free (registry : Registry) (appPid : Pid) : Prop := appPid = 0 ∨ registry.pidIdMap.find appPid = none

instance (registry : Registry) (appPid : Pid) : Decidable (registry.Free appPid) := inferInstanceAs (Decidable (_ ∨ _))

section Outcomes

def Registry.added (registry : Registry) (appPid : Pid) : Registry :=
  {registry with
    lastId := registry.lastId + 1
    pidIdMap := if appPid = 0 then registry.pidIdMap else registry.pidIdMap.insert appPid (registry.lastId + 1)
    idPidMap := registry.idPidMap.insert (registry.lastId + 1) appPid}

theorem registerAppPID_free (free : Registry.Free registry appPid) :
    registerAppPID appPid registry = .ok (registry.lastId + 1) (registry.added appPid) := by
  unfold registerAppPID Registry.added
  by_cases zero : appPid = 0
  · subst zero
    rfl
  · rw [if_neg zero,if_neg zero,get_after,free.resolve_left zero]
    rfl

theorem registerAppPID_taken (taken : ¬ Registry.Free registry appPid) :
    registerAppPID appPid registry = .error (ascii "duplicate app pid: " ++ showInt appPid.toInt) registry := by
  obtain ⟨nonzero,known⟩ := not_or.mp taken
  obtain ⟨appId,found⟩ := Option.ne_none_iff_exists'.mp known
  rw [registerAppPID,if_neg nonzero,get_after,found]
  rfl

theorem registerAppPID_ok : registerAppPID appPid registry = .ok appId registry' ↔
    registry.Free appPid ∧ appId = registry.lastId + 1 ∧ registry' = registry.added appPid := by
  by_cases free : registry.Free appPid
  · rw [registerAppPID_free free]
    constructor
    · intro same; cases same; exact ⟨free,rfl,rfl⟩
    · rintro ⟨_,rfl,rfl⟩; rfl
  · rw [registerAppPID_taken free]
    exact ⟨nofun,fun ⟨known,_⟩ => absurd known free⟩

theorem registerAppPID_registered (done : registerAppPID appPid registry = .ok appId registry') : registry'.Registered appId := by
  obtain ⟨_,rfl,rfl⟩ := registerAppPID_ok.mp done
  simp [Registry.Registered,Registry.added]

variable (host : Host)

theorem attempt_ok : attempt what tried registry = .ok value registry' ↔ tried = .ok value ∧ registry' = registry := by
  cases tried with
  | ok given =>
    constructor
    · intro same; cases same; exact ⟨rfl,rfl⟩
    · rintro ⟨same,rfl⟩; cases same; rfl
  | error reason => exact ⟨nofun,nofun⟩

theorem findPath_ok : findPath host fileName registry = .ok path registry' ↔ host.findPath fileName = some path ∧ registry' = registry := by
  unfold findPath
  cases found : host.findPath fileName with
  | none => exact ⟨nofun,nofun⟩
  | some fullPath =>
    constructor
    · intro same; cases same; exact ⟨rfl,rfl⟩
    · rintro ⟨same,rfl⟩; cases same; rfl

theorem checkEnv_ok : checkEnv entry registry = .ok done registry' ↔ 61 ∈ entry ∧ registry' = registry := by
  unfold checkEnv
  split
  · rename_i parsed
    constructor
    · intro same; cases same; exact ⟨parsed,rfl⟩
    · rintro ⟨_,rfl⟩; rfl
  · rename_i missing
    exact ⟨nofun,fun ⟨parsed,_⟩ => absurd parsed missing⟩

theorem checkEnvs_ok {entries : List Bytes} : entries.forM checkEnv registry = .ok done registry' ↔
    (∀ entry ∈ entries, 61 ∈ entry) ∧ registry' = registry := by
  induction entries generalizing registry with
  | nil =>
    constructor
    · intro same; cases same; exact ⟨nofun,rfl⟩
    · rintro ⟨_,rfl⟩; rfl
  | cons entry entries ih =>
    change (checkEnv entry >>= fun _ => entries.forM checkEnv) registry = _ ↔ _
    rw [bind_ok,List.forall_mem_cons]
    constructor
    · rintro ⟨_,middle,first,rest⟩
      obtain ⟨parsed,rfl⟩ := checkEnv_ok.mp first
      obtain ⟨others,same⟩ := ih.mp rest
      exact ⟨⟨parsed,others⟩,same⟩
    · rintro ⟨⟨parsed,others⟩,rfl⟩
      exact ⟨(),registry',checkEnv_ok.mpr ⟨parsed,rfl⟩,ih.mpr ⟨others,rfl⟩⟩

theorem forkExec_ok : forkExec host launchData registry = .ok forkedPid registry' ↔
    (host.findPath launchData.filepath).isSome = true ∧ (∀ entry ∈ launchData.envList, 61 ∈ entry) ∧
      (∃ pid, host.fork = .ok pid ∧ forkedPid = pid.1) ∧ registry' = registry := by
  constructor
  · intro done
    obtain ⟨path,_,found,rest⟩ := bind_ok.mp done
    obtain ⟨known,rfl⟩ := (findPath_ok host).mp found
    obtain ⟨_,_,parsed,forked⟩ := bind_ok.mp rest
    obtain ⟨entries,rfl⟩ := checkEnvs_ok.mp parsed
    obtain ⟨pid,_,started,last⟩ := bind_ok.mp forked
    obtain ⟨fork,rfl⟩ := attempt_ok.mp started
    cases last
    exact ⟨by rw [known]; rfl,entries,⟨pid,fork,rfl⟩,rfl⟩
  · rintro ⟨found,entries,⟨pid,fork,rfl⟩,rfl⟩
    obtain ⟨path,known⟩ := Option.isSome_iff_exists.mp found
    have one : findPath host launchData.filepath registry' = .ok path registry' := (findPath_ok host).mpr ⟨known,rfl⟩
    have two : launchData.envList.forM checkEnv registry' = .ok () registry' := checkEnvs_ok.mpr ⟨entries,rfl⟩
    rw [forkExec,bind_after one,bind_after two,fork]
    rfl

theorem forkExecvpApp_ok : (∃ appId registry', forkExecvpApp host launchData registry = .ok appId registry') ↔
    (host.findPath launchData.filepath).isSome = true ∧ (∀ entry ∈ launchData.envList, 61 ∈ entry) ∧
      ∃ pid, host.fork = .ok pid ∧ registry.Free pid.1 := by
  constructor
  · rintro ⟨appId,registry',done⟩
    obtain ⟨_,_,forked,registered⟩ := bind_ok.mp done
    obtain ⟨found,entries,⟨pid,fork,rfl⟩,rfl⟩ := (forkExec_ok host).mp forked
    exact ⟨found,entries,pid,fork,(registerAppPID_ok.mp registered).1⟩
  · rintro ⟨found,entries,pid,fork,free⟩
    have forked : forkExec host launchData registry = .ok pid.1 registry := (forkExec_ok host).mpr ⟨found,entries,⟨pid,fork,rfl⟩,rfl⟩
    exact ⟨_,_,(bind_after forked).trans (registerAppPID_free free)⟩

theorem emplaceMPIR_idPidMap {registry : Registry} : (registry.emplaceMPIR mpirId instance').idPidMap = registry.idPidMap := by
  unfold Registry.emplaceMPIR
  split <;> rfl

theorem extractMPIRResult_registered (done : extractMPIRResult host instance' registry = .ok result registry') :
    registry'.Registered result.mpirId := by
  obtain ⟨mpirId,one,registered,rest⟩ := bind_ok.mp done
  obtain ⟨proctable,two,read,last⟩ := bind_ok.mp rest
  obtain ⟨-,same⟩ := attempt_ok.mp read
  cases last
  have kept := registerAppPID_registered registered
  rwa [Registry.Registered,← same,← emplaceMPIR_idPidMap] at kept

theorem launchMPIR_registered (done : launchMPIR host launchData registry = .ok result registry') : registry'.Registered result.mpirId := by
  obtain ⟨launcherPath,_,_,started⟩ := bind_ok.mp done
  obtain ⟨launched,_,_,noted⟩ := bind_ok.mp started
  obtain ⟨_,_,_,stopped⟩ := bind_ok.mp noted
  obtain ⟨_,_,_,running⟩ := bind_ok.mp stopped
  obtain ⟨mpirResult,_,extracted,last⟩ := bind_ok.mp running
  have kept := extractMPIRResult_registered host extracted
  cases last
  exact kept

theorem launchMPIRShim_registered (done : launchMPIRShim host shimData launchData registry = .ok result registry') :
    registry'.Registered result.mpirId := by
  obtain ⟨_,_,_,made⟩ := bind_ok.mp done
  obtain ⟨_,_,_,linked⟩ := bind_ok.mp made
  obtain ⟨launcherPath,_,_,found⟩ := bind_ok.mp linked
  obtain ⟨_,_,_,forked⟩ := bind_ok.mp found
  cases reported : host.shimPid with
  | none =>
    rw [reported] at forked
    cases forked
  | some launcherPid =>
    rw [reported] at forked
    obtain ⟨_,_,_,attached⟩ := bind_ok.mp forked
    obtain ⟨mpirResult,_,extracted,last⟩ := bind_ok.mp attached
    have kept := extractMPIRResult_registered host extracted
    cases last
    exact kept

def idOf : (family : Family) → Answer family → Option Id
  | .ok,_ => none
  | .id,appId => some appId
  | .string,_ => none
  | .mpir,result => some (MPIRResult.mpirId result)

theorem operate_registered
    (done : operate host type command registry = .ok answer registry') (number : idOf type.family answer = some appId) :
    registry'.Registered appId := by
  cases type with
  | ForkExecvpApp =>
    cases command with
    | forkExecvpApp data =>
      cases number
      obtain ⟨_,_,_,registered⟩ := bind_ok.mp done
      exact registerAppPID_registered registered
    | _ => cases done
  | RegisterApp =>
    cases command with
    | registerApp appPid => cases number; exact registerAppPID_registered done
    | _ => cases done
  | LaunchMPIR =>
    cases command with
    | launchMPIR data => cases number; exact launchMPIR_registered host done
    | _ => cases done
  | LaunchMPIRShim =>
    cases command with
    | launchMPIRShim shim data => cases number; exact launchMPIRShim_registered host done
    | _ => cases done
  | AttachMPIR =>
    cases command with
    | attachMPIR launcherName launcherPid =>
      cases number
      obtain ⟨_,_,_,attached⟩ := bind_ok.mp done
      obtain ⟨_,_,_,extracted⟩ := bind_ok.mp attached
      exact extractMPIRResult_registered host extracted
    | _ => cases done
  | _ => cases number

end Outcomes

end CommonTools.FeDaemon
