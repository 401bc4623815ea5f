import Mathlib.Logic.Function.Basic
import CommonTools.FeDaemon.Reaping
import CommonTools.FeDaemon.Visibility
import CommonTools.Interface.Ownership

namespace CommonTools.FeDaemon

def Command.target : Command → Option Id
  | .forkExecvpUtil appId _ _ => some appId
  | .readStringMPIR mpirId _ => some mpirId
  | .releaseMPIR mpirId => some mpirId
  | .waitMPIR mpirId => some mpirId
  | .terminateMPIR mpirId => some mpirId
  | .registerUtil appId _ => some appId
  | .registerUtilWithSigkill appId _ => some appId
  | .deregisterApp appId => some appId
  | .releaseApp appId => some appId
  | .checkApp appId => some appId
  | _ => none

def Command.quiet : Command → Bool
  | .forkExecvpUtil _ _ _ => true
  | .readStringMPIR _ _ => true
  | .releaseMPIR _ => true
  | .waitMPIR _ => true
  | .terminateMPIR _ => true
  | .registerUtil _ _ => true
  | .registerUtilWithSigkill _ _ => true
  | .checkApp _ => true
  | .shutdown => true
  | _ => false

def Returned.flagged : Returned → Bool
  | .flag success => success
  | _ => true

def Returned.number : Returned → Id
  | .id given => given
  | _ => 0

def Returned.string : Returned → Bytes
  | .text given => given
  | _ => []

def Returned.result : Returned → MPIRRead
  | .mpir result => result
  | _ => ⟨0,0,0,0,[]⟩

end CommonTools.FeDaemon

-- SLURM's front ends start tool daemons with a launcher of their own.
def CommonTools.Interface.FrontendClass.slurm : CommonTools.Interface.FrontendClass → Bool
  | .SLURM | .HPCMSLURM | .EproxySLURM => true
  | _ => false

namespace CommonTools.Applications
open FeDaemon OrderedMaps Programs
open Interface (Handle Handles FrontendClass)

inductive Endpoint where
  | here
  | there (remote : Nat)
  deriving DecidableEq

structure Issue where
  app : Option Nat
  endpoint : Endpoint
  id : Id
  deriving DecidableEq

structure Sent where
  app : Option Nat
  endpoint : Endpoint
  command : Command
  issued : List Issue

-- The id a request carries was issued by the daemon it goes to, for the application it is about.
def Sent.Proper (sent : Sent) : Prop :=
  ∀ id ∈ sent.command.target, ∃ key ∈ sent.app, ⟨some key,sent.endpoint,id⟩ ∈ sent.issued

instance (sent : Sent) : Decidable sent.Proper :=
  decidable_of_iff (sent.command.target.all fun id => sent.app.any fun key => ⟨some key,sent.endpoint,id⟩ ∈ sent.issued) (by
    simp [Sent.Proper,Option.all_eq_true,Option.any_eq_true])

-- What an App object has to do with daemons. The last four fields are
-- EproxySLURMApp's m_remoteDaemon and m_remoteMpirId, m_beDaemonSent, which most
-- classes have, and PALSApp's m_atBarrier.
structure Application where
  kind : FrontendClass
  daemonAppId : Id
  remoteDaemon : Nat
  remoteMpirId : Id
  beDaemonSent : Bool
  atBarrier : Bool
  deriving DecidableEq

-- The front end with its daemons. Objects are numbered as they are made. The last
-- four fields are a record of what has happened, and no function reads them: ids
-- issued, requests sent, the launchers of released applications that have not been
-- seen again, and those of them that were signalled.
structure Frontend where
  daemons : Endpoint → Daemon
  hired : Nat
  apps : OrderedMap Nat Application
  made : Nat
  handles : Handles Nat
  closed : Bool
  issued : List Issue
  sent : List Sent
  released : List Pid
  struck : List Pid

abbrev Work := EStateM Failure Frontend

namespace Frontend
variable (frontend : Frontend)

def start : Frontend := ⟨fun _ => Daemon.start,0,.empty,0,.start,false,[],[],[],[]⟩

def registry : Registry := (frontend.daemons .here).registry

def alive (key : Nat) : Bool := (frontend.apps.find key).isSome

def advance (endpoint : Endpoint) (happening : Happening) : Frontend :=
  {frontend with
    daemons := Function.update frontend.daemons endpoint ((frontend.daemons endpoint).next happening)
    released := if endpoint = .here then without frontend.released (happening.rises (frontend.daemons .here)) else frontend.released
    struck := frontend.struck ++ if endpoint = .here
      then within (((frontend.daemons .here).sent happening).map Prod.fst) frontend.released else []}

def served (host : Host) (app : Option Nat) (endpoint : Endpoint) (command : Command) : Frontend :=
  let daemon := frontend.daemons endpoint
  {frontend.advance endpoint (.request host command) with
    issued := frontend.issued ++ ((daemon.serve host command).issued.drop daemon.issued.length).map fun id => ⟨app,endpoint,id⟩
    sent := frontend.sent ++ [⟨app,endpoint,command,frontend.issued⟩]}

end Frontend

def raised : Except Failure α → Work α
  | .ok value => pure value
  | .error failure => throw failure

def trouble : Option Failure → Work Unit
  | none => pure ()
  | some failure => throw failure

def quietly (act : Work α) : Work Unit := tryCatch (do let _ ← act) fun _ => pure ()

-- What the destructors do when an exception passes.
def unwinding (clean : Work Unit) (act : Work α) : Work α := tryCatch act fun failure => do
  clean
  throw failure

section Requests
variable (hosts : Nat → Host)

def ask (app : Option Nat) (endpoint : Endpoint) (type : ReqType) (command : Command) :
    Work (Except CStr (Answer type.family)) := fun frontend =>
  let host := hosts frontend.sent.length
  .ok ((operations host (frontend.daemons endpoint).registry).run type command) (frontend.served host app endpoint command)

def request (app : Option Nat) (wanted : Request) : Work Returned := do
  raised (wanted.seen (← ask hosts app .here wanted.type wanted.meant))

variable (app : Option Nat)

def forkExecvpUtilSync (appId : Id) (launch : Launch) : Work Bool := do
  return (← request hosts app (.forkExecvpUtil appId .synchronous launch)).flagged

def forkExecvpUtilAsync (appId : Id) (launch : Launch) : Work Unit := do
  let _ ← request hosts app (.forkExecvpUtil appId .asynchronous launch)

def requestRegisterApp (appPid : Pid) : Work Id := do
  return (← request hosts app (.registerApp appPid)).number

def requestReadStringMPIR (mpirId : Id) (name : CStr) : Work Bytes := do
  return (← request hosts app (.readStringMPIR mpirId name)).string

def requestLaunchMPIR (launch : Launch) : Work MPIRRead := do
  return (← request hosts app (.launchMPIR launch)).result

def requestAttachMPIR (launcherPath : CStr) (launcherPid : Pid) : Work MPIRRead := do
  return (← request hosts app (.attachMPIR launcherPath launcherPid)).result

section Remote
variable (remote : Nat)

def remoteLaunchMPIR (launch : Launch) : Work MPIRRead := do
  return (← raised (seenMPIR (← ask hosts app (.there remote) .LaunchMPIR (.launchMPIR launch.meant)))).result

def remoteAttachMPIR (launcherName : CStr) (launcherPid : Pid) : Work MPIRRead := do
  return (← raised (seenMPIR (← ask hosts app (.there remote) .AttachMPIR (.attachMPIR launcherName.1 launcherPid)))).result

def remoteReadStringMPIR (mpirId : Id) (name : CStr) : Work Bytes := do
  return (← raised (seenString (← ask hosts app (.there remote) .ReadStringMPIR (.readStringMPIR mpirId name.1)))).string

-- Of an OK response only the type is looked at.
def remoteReleaseMPIR (mpirId : Id) : Work Unit := do
  let _ ← ask hosts app (.there remote) .ReleaseMPIR (.releaseMPIR mpirId)

def remoteCheckApp (mpirId : Id) : Work Bool := do
  let _ ← ask hosts app (.there remote) .CheckApp (.checkApp mpirId)
  return true

def remoteDeregisterApp (mpirId : Id) : Work Unit := do
  let _ ← ask hosts app (.there remote) .DeregisterApp (.deregisterApp mpirId)

def stopRemoteDaemon : Work Unit := do
  let _ ← ask hosts app (.there remote) .Shutdown .shutdown

end Remote

end Requests

def startRemoteDaemon : Work Nat := modifyGet fun frontend => (frontend.hired,{frontend with hired := frontend.hired + 1})

end CommonTools.Applications
