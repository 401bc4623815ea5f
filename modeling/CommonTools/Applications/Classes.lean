import CommonTools.Applications.Requests

namespace CommonTools.Applications
open FeDaemon Numerals OrderedMaps Programs
open Interface (Handle Handles FrontendClass)

abbrev Process := {pid : Pid // 0 < pid.toInt}

-- A command of the workload manager, with what is thrown when it fails. The
-- command lines and the names in these texts come with the call.
structure Utility where
  launch : Launch
  failure : String

structure Srun where
  shim : Option (CStr × CStr × CStr)
  launch : Launch

structure Package where
  delivered : Option Failure
  copy : Utility
  move : Utility

-- A call of startDaemon: the tool daemon's binary, and how it is started.
structure DaemonStart where
  found : Option Failure
  copy : Utility
  package : Package
  ready : Option Failure
  srun : Srun
  overSSH : Bool
  synchronous : Bool

-- CTI_BACKEND_WRAPPER: the utility is shipped and run on each host that has wrapped processes.
structure Wrapper where
  copied : Option Failure
  package : Utility
  queries : List Launch

-- What a constructor meets on its way that is no daemon's business.
structure Site where
  settled : Option Failure
  wrapper : Option Wrapper
  finished : Option Failure

def jobIdName : CStr := ⟨ascii "totalview_jobid",by decide⟩

def stepIdName : CStr := ⟨ascii "totalview_stepid",by decide⟩

def parsed (text : Bytes) (name : String) : Work Unit :=
  match stoi text with
  | .ok _ => pure ()
  | .error _ => throw (.received (ascii ("Failed to parse " ++ name ++ " (was '") ++ text ++ ascii "')"))

def object (key : Nat) : Work Application := do
  match (← get).apps.find key with
  | some app => return app
  | none => throw (.text "Owning app is no longer valid.")

def Frontend.revise (frontend : Frontend) (key : Nat) (update : Application → Application) : Frontend :=
  {frontend with apps := match frontend.apps.find key with
    | none => frontend.apps
    | some app => frontend.apps.insert key (update app)}

def daemonSent (key : Nat) : Work Unit := modify (·.revise key fun app => {app with beDaemonSent := true})

def unlessSent (app : Application) (act : Work Unit) : Work Unit := if app.beDaemonSent then pure () else act

def ifIssued (mpirId : Id) (act : Work Unit) : Work Unit := if 0 < mpirId.toInt then act else pure ()

def ifGiven (given : Option α) (act : α → Work Unit) : Work Unit :=
  match given with
  | none => pure ()
  | some value => act value

section Operations
variable (hosts : Nat → Host) (key : Nat)

def runUtility (appId : Id) (utility : Utility) : Work Unit := do
  if ← forkExecvpUtilSync hosts (some key) appId utility.launch then return ()
  else throw (.text utility.failure)

def sbcast (appId : Id) (utility : Utility) : Nat → Work Unit
  | 0 => throw (.text utility.failure)
  | triesLeft + 1 => do
    if ← forkExecvpUtilSync hosts (some key) appId utility.launch then return ()
    else sbcast appId utility triesLeft

def shipPackage (app : Application) (package : Package) : Work Unit := do
  trouble package.delivered
  match app.kind with
  | .SLURM | .HPCMSLURM | .EproxySLURM => sbcast hosts key app.daemonAppId package.copy 3
  | .PALS => do
    runUtility hosts key app.daemonAppId package.copy
    runUtility hosts key app.daemonAppId package.move
  | .GenericSSH | .ALPS | .Flux | .Localhost => pure ()

def shipDaemon (app : Application) (found : Option Failure) (package : Package) : Work Unit := unlessSent app do
  trouble found
  shipPackage hosts key app package
  daemonSent key

def launchUnder (shim : Option (CStr × CStr × CStr)) (launch : Launch) : Work MPIRRead :=
  match shim with
  | some (shimBinaryPath,temporaryShimBinDir,shimmedLauncherPath) => do
    return (← request hosts (some key) (.launchMPIRShim shimBinaryPath temporaryShimBinDir shimmedLauncherPath launch)).result
  | none => requestLaunchMPIR hosts (some key) launch

-- What came from a shim is taken as it is.
def srunMPIR (srun : Srun) : Work MPIRRead := do
  let result ← launchUnder hosts key srun.shim srun.launch
  if srun.shim.isSome then return result
  else
    if result.proctable = [] then throw (.text "Launcher provided empty proctable")
    else if result.proctable.any fun elem => decide (elem.pid.toInt < 0) then throw (.text "Launcher proctable had negative PID")
    else return result

-- When the limit of jobs on a node has been reached, ssh may be able to do it.
def srunDaemon (start : DaemonStart) : Work (Option MPIRRead) :=
  tryCatch (do return some (← srunMPIR hosts key start.srun)) fun failure =>
    if start.overSSH then pure none else throw failure

def settleDaemon (start : DaemonStart) : Option MPIRRead → Work Unit
  | none => return ()
  | some result => do
    if start.synchronous then let _ ← request hosts (some key) (.waitMPIR result.mpirId)
    else let _ ← request hosts (some key) (.releaseMPIR result.mpirId)

def startDaemon (app : Application) (start : DaemonStart) : Work Unit :=
  match app.kind with
  | .SLURM | .HPCMSLURM | .EproxySLURM => do
    shipDaemon hosts key app start.found start.package
    trouble start.ready
    settleDaemon hosts key start (← srunDaemon hosts key start)
  | .GenericSSH => do
    unlessSent app do
      trouble start.found
      runUtility hosts key app.daemonAppId start.copy
      trouble start.package.delivered
      daemonSent key
    trouble start.ready
  | .ALPS => do
    unlessSent app (runUtility hosts key app.daemonAppId start.copy)
    trouble start.ready
    daemonSent key
  | .PALS => do
    unlessSent app do
      trouble start.found
      runUtility hosts key app.daemonAppId start.copy
      shipPackage hosts key app start.package
      daemonSent key
    forkExecvpUtilAsync hosts (some key) app.daemonAppId start.srun.launch
  | .Flux | .Localhost => trouble start.ready

def checkFilesExist (app : Application) (start : DaemonStart) : Work Unit :=
  match app.kind with
  | .SLURM | .HPCMSLURM | .EproxySLURM => do
    shipDaemon hosts key app start.found start.package
    forkExecvpUtilAsync hosts (some key) app.daemonAppId start.srun.launch
  | .PALS => forkExecvpUtilAsync hosts (some key) app.daemonAppId start.srun.launch
  | .GenericSSH | .ALPS | .Flux | .Localhost => trouble start.ready

-- A signal that apkill does not know goes through a session.
def kill (app : Application) (utility : Utility) (checkScancelOutput : Bool) (sent : Option Failure) : Work Unit :=
  match app.kind with
  | .SLURM | .HPCMSLURM | .EproxySLURM =>
    if checkScancelOutput then do
      forkExecvpUtilAsync hosts (some key) app.daemonAppId utility.launch
      trouble sent
    else runUtility hosts key app.daemonAppId utility
  | .ALPS | .PALS => runUtility hosts key app.daemonAppId utility
  | .GenericSSH | .Flux | .Localhost => trouble sent

def releaseBarrier (app : Application) (done : Option Failure) : Work Unit :=
  match app.kind with
  | .SLURM | .HPCMSLURM | .GenericSSH => do
    let _ ← request hosts (some key) (.releaseMPIR app.daemonAppId)
  | .PALS => do
    if app.atBarrier then
      let _ ← request hosts (some key) (.releaseMPIR app.daemonAppId)
      modify (·.revise key fun app => {app with atBarrier := false})
    else throw (.text "application is not at startup barrier")
  | .EproxySLURM => ifIssued app.remoteMpirId (remoteReleaseMPIR hosts (some key) app.remoteDaemon app.remoteMpirId)
  | .ALPS | .Flux | .Localhost => trouble done

def isRunning (app : Application) (reported : Except Failure Bool) : Work Bool :=
  match app.kind with
  | .GenericSSH | .ALPS => do
    return (← request hosts (some key) (.checkApp app.daemonAppId)).flagged
  | .EproxySLURM => remoteCheckApp hosts (some key) app.remoteDaemon app.daemonAppId
  | .SLURM | .HPCMSLURM | .PALS | .Flux | .Localhost => raised reported

-- The destructors. PALSApp has its directory removed.
def destructApp (app : Application) (palscmd : Launch) : Work Unit :=
  match app.kind with
  | .SLURM | .HPCMSLURM | .GenericSSH | .Flux => quietly (request hosts (some key) (.deregisterApp app.daemonAppId))
  | .EproxySLURM => do
    ifIssued app.remoteMpirId (remoteDeregisterApp hosts (some key) app.remoteDaemon app.remoteMpirId)
    stopRemoteDaemon hosts (some key) app.remoteDaemon
    quietly (request hosts (some key) (.deregisterApp app.daemonAppId))
  | .PALS => quietly (forkExecvpUtilSync hosts (some key) app.daemonAppId palscmd)
  | .ALPS | .Localhost => pure ()

end Operations

section Constructors
variable (hosts : Nat → Host) (key : Nat)

def reparentProctable (appId : Id) (wrapper : Wrapper) : Work Unit := do
  trouble wrapper.copied
  sbcast hosts key appId wrapper.package 3
  wrapper.queries.forM (forkExecvpUtilAsync hosts (some key) appId)

def readNumber (appId : Id) (given : Bytes) (name : CStr) (what : String) : Work Unit := do
  if given = [] then parsed (← requestReadStringMPIR hosts (some key) appId name) what
  else parsed given what

def invalidDaemonId (appId : Id) : Failure := .text ("tried to create app with invalid daemon id: " ++ toString appId.toInt)

def newSLURMApp (kind : FrontendClass) (mpirId : Id) (jobId stepId : Bytes) (site : Site) : Work Application := do
  readNumber hosts key mpirId jobId jobIdName "totalview_jobid from launcher"
  readNumber hosts key mpirId stepId stepIdName "totalview_stepid from launcher"
  trouble site.settled
  if mpirId = 0 then throw (invalidDaemonId mpirId)
  else
    ifGiven site.wrapper (reparentProctable hosts key mpirId)
    trouble site.finished
    return ⟨kind,mpirId,0,0,false,false⟩

-- The part of SLURMApp is made with the remote daemon's id, and told the local
-- one afterwards.
def newEproxySLURMApp (remote : Nat) (mpirId : Id) (jobId stepId : Bytes) (site : Site) : Work Application := do
  let _ ← unwinding (stopRemoteDaemon hosts (some key) remote) (newSLURMApp hosts key .EproxySLURM mpirId jobId stepId site)
  let appId ← unwinding
    (do
      stopRemoteDaemon hosts (some key) remote
      quietly (request hosts (some key) (.deregisterApp mpirId)))
    (requestRegisterApp hosts (some key) 0)
  return ⟨.EproxySLURM,appId,remote,mpirId,false,false⟩

def newGenericSSHApp (mpirId : Id) (site : Site) : Work Application := do
  trouble site.settled
  if mpirId = 0 then throw (invalidDaemonId mpirId)
  else
    trouble site.finished
    return ⟨.GenericSSH,mpirId,0,0,false,false⟩

def newPALSApp (appId : Id) (atBarrier : Bool) (mkdir : Utility) (site : Site) : Work Application := do
  trouble site.settled
  runUtility hosts key appId mkdir
  trouble site.finished
  return ⟨.PALS,appId,0,0,false,atBarrier⟩

def newFluxApp (attachPid : Option Process) (site : Site) : Work Application := do
  let appId ← requestRegisterApp hosts (some key) 0
  trouble site.settled
  ifGiven attachPid fun pid => do let _ ← request hosts (some key) (.registerUtilWithSigkill appId pid.1)
  trouble site.finished
  return ⟨.Flux,appId,0,0,false,false⟩

end Constructors

inductive Launching where
  | slurm (hpcm : Bool) (started : Srun) (site : Site)
  | eproxy (launch : Launch) (site : Site)
  | ssh (shim : Option (CStr × CStr × CStr)) (launch : Launch) (site : Site)
  | alps (aprunPid : Process) (wrapper : Option Process) (site : Site)
  | pals (launch : Launch) (mkdir : Utility) (site : Site)
  | flux (attachPid : Option Process) (site : Site)
  | localhost (site : Site)

inductive Registering where
  | slurm (hpcm : Bool) (first : Launch) (others : List Launch) (site : Site)
  | eproxy (jobId stepId : Nat) (first : Launch) (others : List Launch) (site : Site)
  | ssh (launcherPath : CStr) (launcherPid : Pid) (site : Site)
  | sshRemote (launcherName : CStr) (launcherPid : Pid) (ours : Process) (site : Site)
  | alps (aprunPid : Process) (site : Site)
  | pals (mkdir : Utility) (site : Site)
  | flux (site : Site)
  | localhost (site : Site)

section Launches
variable (hosts : Nat → Host) (key : Nat)

-- The first session is kept, the others have served their purpose.
def keptSession (release : Id → Work Unit) (mpirId newest : Id) : Work Id := do
  if mpirId.toInt < 0 then return newest
  else
    release newest
    return mpirId

def sattachMPIR (launch : Launch → Work MPIRRead) (release : Id → Work Unit) : MPIRRead → List Launch → Work MPIRRead
  | result,[] => return result
  | result,job :: jobs => do
    let mpirResult ← launch job
    let mpirId ← keptSession release result.mpirId mpirResult.mpirId
    sattachMPIR launch release
      {result with
        mpirId := mpirId
        launcherPid := if result.launcherPid.toInt < 0 then mpirResult.launcherPid else result.launcherPid
        proctable := result.proctable ++ mpirResult.proctable} jobs

def noResult : MPIRRead := ⟨-1,-1,0,0,[]⟩

def sattachMPIRLocal (jobs : List Launch) : Work MPIRRead :=
  sattachMPIR (requestLaunchMPIR hosts (some key))
    (fun mpirId => do let _ ← request hosts (some key) (.releaseMPIR mpirId)) noResult jobs

def sattachMPIRRemote (remote : Nat) (jobs : List Launch) : Work MPIRRead :=
  sattachMPIR (remoteLaunchMPIR hosts (some key) remote) (remoteReleaseMPIR hosts (some key) remote) noResult jobs

structure RemoteJob where
  mpirId : Id
  jobId : Bytes
  stepId : Bytes

def launchRemotely (remote : Nat) (launch : Launch) : Work RemoteJob := do
  let mpirData ← remoteLaunchMPIR hosts (some key) remote launch
  let jobId ← remoteReadStringMPIR hosts (some key) remote mpirData.mpirId jobIdName
  let stepId ← remoteReadStringMPIR hosts (some key) remote mpirData.mpirId stepIdName
  return ⟨mpirData.mpirId,jobId,stepId⟩

-- A RemoteDaemon goes with the function that has it.
def launchEproxy (launch : Launch) (site : Site) : Work Application := do
  let remote ← startRemoteDaemon
  let job ← unwinding (stopRemoteDaemon hosts (some key) remote) (launchRemotely hosts key remote launch)
  newEproxySLURMApp hosts key remote job.mpirId job.jobId job.stepId site

def registerEproxy (jobId stepId : Nat) (jobs : List Launch) (site : Site) : Work Application := do
  let remote ← startRemoteDaemon
  let mpirData ← unwinding (stopRemoteDaemon hosts (some key) remote) (sattachMPIRRemote hosts key remote jobs)
  newEproxySLURMApp hosts key remote mpirData.mpirId (decimal jobId) (decimal stepId) site

-- SSHSession::attachMPIR has a daemon for this one request. The application itself
-- is registered here, as this very process.
def registerRemoteJob (launcherName : CStr) (launcherPid : Pid) (ours : Process) (site : Site) : Work Application := do
  let remote ← startRemoteDaemon
  let _ ← remoteAttachMPIR hosts (some key) remote launcherName launcherPid
  stopRemoteDaemon hosts (some key) remote
  newGenericSSHApp (← requestRegisterApp hosts (some key) ours.1) site

-- ALPSApp's constructor does not look at the id.
def launchAprun (aprunPid : Process) (wrapper : Option Process) (site : Site) : Work Application := do
  trouble site.settled
  let appId ← requestRegisterApp hosts (some key) aprunPid.1
  ifGiven wrapper fun pid => do let _ ← request hosts (some key) (.registerUtil appId pid.1)
  trouble site.finished
  return ⟨.ALPS,appId,0,0,false,false⟩

def launchPALS (launch : Launch) (mkdir : Utility) (site : Site) : Work Application := do
  let mpirData ← requestLaunchMPIR hosts (some key) launch
  let _ ← requestReadStringMPIR hosts (some key) mpirData.mpirId jobIdName
  newPALSApp hosts key mpirData.mpirId true mkdir site

def slurmKind (hpcm : Bool) : FrontendClass := if hpcm then .HPCMSLURM else .SLURM

def launchSLURM (hpcm : Bool) (started : Srun) (site : Site) : Work Application := do
  let mpirData ← srunMPIR hosts key started
  newSLURMApp hosts key (slurmKind hpcm) mpirData.mpirId [] [] site

def registerSLURM (hpcm : Bool) (jobs : List Launch) (site : Site) : Work Application := do
  let mpirData ← sattachMPIRLocal hosts key jobs
  newSLURMApp hosts key (slurmKind hpcm) mpirData.mpirId [] [] site

def launchSSH (shim : Option (CStr × CStr × CStr)) (launch : Launch) (site : Site) : Work Application := do
  let mpirData ← launchUnder hosts key shim launch
  newGenericSSHApp mpirData.mpirId site

def newLocalhostApp (site : Site) : Work Application := do
  trouble site.settled
  return ⟨.Localhost,0,0,0,false,false⟩

def Launching.application : Launching → Work Application
  | .slurm hpcm started site => launchSLURM hosts key hpcm started site
  | .eproxy launch site => launchEproxy hosts key launch site
  | .ssh shim launch site => launchSSH hosts key shim launch site
  | .alps aprunPid wrapper site => launchAprun hosts key aprunPid wrapper site
  | .pals launch mkdir site => launchPALS hosts key launch mkdir site
  | .flux attachPid site => newFluxApp hosts key attachPid site
  | .localhost site => newLocalhostApp site

def Registering.application : Registering → Work Application
  | .slurm hpcm first others site => registerSLURM hosts key hpcm (first :: others) site
  | .eproxy jobId stepId first others site => registerEproxy hosts key jobId stepId (first :: others) site
  | .ssh launcherPath launcherPid site => do
    newGenericSSHApp (← requestAttachMPIR hosts (some key) launcherPath launcherPid).mpirId site
  | .sshRemote launcherName launcherPid ours site => registerRemoteJob hosts key launcherName launcherPid ours site
  | .alps aprunPid site => launchAprun hosts key aprunPid none site
  | .pals mkdir site => do
    newPALSApp hosts key (← requestRegisterApp hosts (some key) 0) false mkdir site
  | .flux site => newFluxApp hosts key none site
  | .localhost site => newLocalhostApp site

end Launches

end CommonTools.Applications
