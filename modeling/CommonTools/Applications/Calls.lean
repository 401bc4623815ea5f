import CommonTools.Applications.Classes

namespace CommonTools.Applications
open FeDaemon Numerals OrderedMaps Programs
open Interface (Handle Handles HandlesM FrontendClass)

inductive Operation where
  | shipPackage (package : Package)
  | startDaemon (start : DaemonStart)
  | checkFilesExist (start : DaemonStart)
  | kill (utility : Utility) (checkScancelOutput : Bool) (sent : Option Failure)
  | releaseBarrier (done : Option Failure)

namespace Frontend
variable (frontend : Frontend)

def launcher (owner : Option Nat) : Option Pid := do
  let app ← frontend.apps.find (← owner)
  (frontend.registry.idPidMap.find app.daemonAppId).filter (· ≠ 0)

def owner (appId : Handle) : Option Nat := frontend.handles.held frontend.alive appId

def withApp (key : Nat) (app : Application) : Frontend := {frontend with apps := frontend.apps.insert key app}

def withoutApp (key : Nat) : Frontend := {frontend with apps := frontend.apps.erase key}

def forgetApp (appId : Handle) : Frontend := {frontend with handles := frontend.handles.erased appId}

def letGo (launchers : List Pid) : Frontend := {frontend with released := frontend.released ++ launchers}

def stopped : Frontend :=
  {frontend with
    daemons := Function.update frontend.daemons .here {frontend.daemons .here with registry := frontend.registry.shutdown}
    struck := frontend.struck ++ within (frontend.registry.shutdownSent.map Prod.fst) frontend.released
    closed := true}

end Frontend

def onHandles (act : (Nat → Bool) → HandlesM Nat α) : Work α := fun frontend =>
  match act frontend.alive frontend.handles with
  | .ok value handles => .ok value {frontend with handles := handles}
  | .error message handles => .error (.text message) {frontend with handles := handles}

def getApp (appId : Handle) : Work Nat := onHandles fun alive => Handles.getHandle alive appId

def validApp (appId : Handle) : Work Bool := onHandles fun alive => Handles.isValid alive appId

def trackApp (key : Nat) : Work Handle := onHandles fun _ => Handles.add key

def newObject : Work Nat := modifyGet fun frontend => (frontend.made,{frontend with made := frontend.made + 1})

section Calls
variable (hosts : Nat → Host)

def Operation.perform (key : Nat) (operation : Operation) : Work Unit := do
  let app ← object key
  match operation with
  | .shipPackage package => Applications.shipPackage hosts key app package
  | .startDaemon start => Applications.startDaemon hosts key app start
  | .checkFilesExist start => Applications.checkFilesExist hosts key app start
  | .kill utility checkScancelOutput sent => Applications.kill hosts key app utility checkScancelOutput sent
  | .releaseBarrier done => Applications.releaseBarrier hosts key app done

def Application.pastBarrier (app : Application) : Application := {app with atBarrier := false}

-- EproxySLURMFrontend::launch lets go of the object it returns a weak_ptr to.
def launch (key : Nat) (launching : Launching) (palscmd : Launch) : Work Unit := do
  let app ← launching.application hosts key
  match app.kind with
  | .EproxySLURM =>
    releaseBarrier hosts key app none
    destructApp hosts key app palscmd
  | .SLURM | .HPCMSLURM | .GenericSSH | .PALS =>
    unwinding (destructApp hosts key app palscmd) (releaseBarrier hosts key app none)
    modify (·.withApp key app.pastBarrier)
  | .ALPS | .Flux | .Localhost => modify (·.withApp key app)

def launchApp (launching : Launching) (palscmd : Launch) : Work Handle := do
  let key ← newObject
  launch hosts key launching palscmd
  trackApp key

def launchAppBarrier (launching : Launching) : Work Handle := do
  let key ← newObject
  let app ← launching.application hosts key
  modify (·.withApp key app)
  trackApp key

def registerApp (registering : Registering) : Work Handle := do
  let key ← newObject
  let app ← registering.application hosts key
  modify (·.withApp key app)
  trackApp key

-- The launcher is attached to as if it were an application of its own.
def getSrunInfo (launcherPath : CStr) (srunPid : Pid) : Work Unit := do
  let key ← newObject
  if srunPid.toInt ≤ 0 then throw (.text ("Invalid srunPid " ++ toString srunPid.toInt))
  else
    let mpirData ← requestAttachMPIR hosts (some key) launcherPath srunPid
    readNumber hosts key mpirData.mpirId [] jobIdName "totalview_jobid from launcher"
    readNumber hosts key mpirData.mpirId [] stepIdName "totalview_stepid from launcher"
    let _ ← request hosts (some key) (.releaseMPIR mpirData.mpirId)

-- PALSFrontend::getApid and FluxFrontend::getJobid.
def getApid (launcherPath : CStr) (launcherPid : Pid) : Work Unit := do
  let key ← newObject
  let mpirData ← requestAttachMPIR hosts (some key) launcherPath launcherPid
  let _ ← requestReadStringMPIR hosts (some key) mpirData.mpirId jobIdName
  let _ ← request hosts (some key) (.releaseMPIR mpirData.mpirId)

-- finalize has each session cleaned up until something is thrown. The caller still
-- has the object when its id goes.
def removeApp (appId : Handle) (key : Nat) (cleanups : List Operation) (palscmd : Launch) : Work Unit := do
  quietly (cleanups.forM (Operation.perform hosts key))
  let app ← object key
  modify (·.withoutApp key)
  modify (·.forgetApp appId)
  destructApp hosts key app palscmd

def appIsValid (appId : Handle) (reported : Except Failure Bool) (cleanups : List Operation) (palscmd : Launch) : Work Bool := do
  if ← validApp appId then
    let key ← getApp appId
    if ← isRunning hosts key (← object key) reported then return true
    else
      removeApp hosts appId key cleanups palscmd
      return false
  else return false

def deregisterApp (appId : Handle) (cleanups : List Operation) (palscmd : Launch) : Work Unit := do
  let key ← getApp appId
  removeApp hosts appId key cleanups palscmd

def releaseApp (appId : Handle) : Work Unit := do
  let frontend ← get
  let _ ← request hosts (frontend.owner appId) (.releaseApp (appId.setWidth 32))
  modify (·.forgetApp appId)
  modify (·.letGo (frontend.launcher (frontend.owner appId)).toList)

def useApp (appId : Handle) (operation : Operation) : Work Unit := do
  operation.perform hosts (← getApp appId)

def destroy (cleanups : Nat → List Operation) (palscmd : Nat → Launch) : Work Unit := do
  let keys := (← get).apps.entries.map Prod.fst
  keys.forM fun key => quietly ((cleanups key).forM (Operation.perform hosts key))
  keys.forM fun key => quietly do
    let app ← object key
    modify (·.withoutApp key)
    destructApp hosts key app (palscmd key)
  quietly (request hosts none .shutdown)
  modify (·.stopped)

end Calls

-- What the client can call, with what is outside the front end answering, and what
-- happens to the daemons' children in between. Sessions and manifests lead to their
-- application as long as it is there, with or without an id.
inductive Call where
  | launchApp (launching : Launching) (palscmd : Launch)
  | launchAppBarrier (launching : Launching)
  | registerApp (registering : Registering)
  | getSrunInfo (launcherPath : CStr) (srunPid : Pid)
  | getApid (launcherPath : CStr) (launcherPid : Pid)
  | appIsValid (appId : Handle) (reported : Except Failure Bool) (cleanups : List Operation) (palscmd : Launch)
  | deregisterApp (appId : Handle) (cleanups : List Operation) (palscmd : Launch)
  | releaseApp (appId : Handle)
  | useApp (appId : Handle) (operation : Operation)
  | useSession (key : Nat) (operation : Operation)
  | child (endpoint : Endpoint) (code : ChildCode) (pid : Pid)
  | removed (endpoint : Endpoint) (appId : Id)
  | destroy (cleanups : Nat → List Operation) (palscmd : Nat → Launch)

section Running
variable (hosts : Nat → Host)

def Call.perform : Call → Work Unit
  | .launchApp launching palscmd => do let _ ← Applications.launchApp hosts launching palscmd
  | .launchAppBarrier launching => do let _ ← Applications.launchAppBarrier hosts launching
  | .registerApp registering => do let _ ← Applications.registerApp hosts registering
  | .getSrunInfo launcherPath srunPid => Applications.getSrunInfo hosts launcherPath srunPid
  | .getApid launcherPath launcherPid => Applications.getApid hosts launcherPath launcherPid
  | .appIsValid appId reported cleanups palscmd => do let _ ← Applications.appIsValid hosts appId reported cleanups palscmd
  | .deregisterApp appId cleanups palscmd => Applications.deregisterApp hosts appId cleanups palscmd
  | .releaseApp appId => Applications.releaseApp hosts appId
  | .useApp appId operation => Applications.useApp hosts appId operation
  | .useSession key operation => operation.perform hosts key
  | .child endpoint code pid => modify (·.advance endpoint (.child code pid))
  | .removed endpoint appId => modify (·.advance endpoint (.removed appId))
  | .destroy cleanups palscmd => Applications.destroy hosts cleanups palscmd

def Frontend.next (frontend : Frontend) (call : Call) : Frontend :=
  if frontend.closed then frontend else after (call.perform hosts frontend)

variable {hosts} in
theorem Frontend.next_keeps {P : Frontend → Prop} {frontend : Frontend} (kept : P frontend) (performed : P (after (call.perform hosts frontend))) :
    P (frontend.next hosts call) := by
  unfold Frontend.next
  split
  · exact kept
  · exact performed

end Running

end CommonTools.Applications
