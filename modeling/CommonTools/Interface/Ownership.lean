import CommonTools.Interface.Handles
import CommonTools.Transfer.Records

namespace CommonTools.Interface
open OrderedMaps Programs
open Transfer (World AddCall Delivery)

-- Objects are told apart by when they were made, a manifest by its place in its session.
structure SessionPtr where
  app : Nat
  session : Nat
  deriving DecidableEq

structure ManifestPtr where
  session : SessionPtr
  mani : Nat
  deriving DecidableEq

structure AppObject where
  app : Transfer.App
  sessions : OrderedMap Nat World

inductive FrontendClass where
  | SLURM
  | HPCMSLURM
  | EproxySLURM
  | GenericSSH
  | ALPS
  | PALS
  | Flux
  | Localhost
  deriving DecidableEq

-- Frontend::m_apps and the registries of FE_iface. The last five fields are what
-- the client has been given and has given back, and no function reads them: the
-- ids of applications, those among them that still stand, the ids of sessions and
-- of manifests with the id they were made for, and the manifests sent or executed.
structure Library where
  apps : OrderedMap Nat AppObject
  made : Nat
  appHandles : Handles Nat
  sessionHandles : Handles SessionPtr
  manifestHandles : Handles ManifestPtr
  appIds : List Handle
  standing : List Handle
  sessionIds : List (Handle × Handle)
  manifestIds : List (Handle × Handle)
  spent : List Handle

abbrev Api := EStateM String Library

namespace Library

def start : Library := ⟨.empty,0,.start,.start,.start,[],[],[],[],[]⟩

def world (lib : Library) (ptr : SessionPtr) : Option World :=
  (lib.apps.find ptr.app).bind fun object => object.sessions.find ptr.session

-- Whether a weak_ptr to the object can be locked.
def appAlive (lib : Library) (key : Nat) : Bool := (lib.apps.find key).isSome

def sessionAlive (lib : Library) (ptr : SessionPtr) : Bool := (lib.world ptr).isSome

def manifestAlive (lib : Library) (ptr : ManifestPtr) : Bool :=
  (lib.world ptr.session).any fun w => decide (ptr.mani ∈ w.session.manifests)

def revise (lib : Library) (key : Nat) (change : AppObject → AppObject) : Library :=
  {lib with apps := match lib.apps.find key with
    | none => lib.apps
    | some object => lib.apps.insert key (change object)}

def entered (lib : Library) (app : Transfer.App) (keeps : Bool) : Library :=
  {lib with
    made := lib.made + 1
    apps := if keeps then lib.apps.insert lib.made ⟨app,.empty⟩ else lib.apps}

def withoutApp (lib : Library) (key : Nat) : Library := {lib with apps := lib.apps.erase key}

def withSession (lib : Library) (key : Nat) (stageName wlmType : String) : Library :=
  {lib.revise key fun object =>
    {object with sessions := object.sessions.insert lib.made (World.start object.app stageName wlmType)} with
    made := lib.made + 1}

def withoutSession (lib : Library) (ptr : SessionPtr) : Library :=
  lib.revise ptr.app fun object => {object with sessions := object.sessions.erase ptr.session}

def withWorld (lib : Library) (ptr : SessionPtr) (w : World) : Library :=
  lib.revise ptr.app fun object => {object with sessions := object.sessions.insert ptr.session w}

def forgetApp (lib : Library) (appId : Handle) : Library := {lib with appHandles := lib.appHandles.erased appId}

def forgetSession (lib : Library) (sid : Handle) : Library := {lib with sessionHandles := lib.sessionHandles.erased sid}

def forgetManifest (lib : Library) (mid : Handle) : Library := {lib with manifestHandles := lib.manifestHandles.erased mid}

end Library

def onApps (act : (Nat → Bool) → HandlesM Nat α) : Api α := fun lib =>
  match act lib.appAlive lib.appHandles with
  | .ok value handles => .ok value {lib with appHandles := handles}
  | .error message handles => .error message {lib with appHandles := handles}

def onSessions (act : (SessionPtr → Bool) → HandlesM SessionPtr α) : Api α := fun lib =>
  match act lib.sessionAlive lib.sessionHandles with
  | .ok value handles => .ok value {lib with sessionHandles := handles}
  | .error message handles => .error message {lib with sessionHandles := handles}

def onManifests (act : (ManifestPtr → Bool) → HandlesM ManifestPtr α) : Api α := fun lib =>
  match act lib.manifestAlive lib.manifestHandles with
  | .ok value handles => .ok value {lib with manifestHandles := handles}
  | .error message handles => .error message {lib with manifestHandles := handles}

def getApp (appId : Handle) : Api Nat := onApps fun alive => Handles.getHandle alive appId

def getSession (sid : Handle) : Api SessionPtr := onSessions fun alive => Handles.getHandle alive sid

def getManifest (mid : Handle) : Api ManifestPtr := onManifests fun alive => Handles.getHandle alive mid

def validApp (appId : Handle) : Api Bool := onApps fun alive => Handles.isValid alive appId

def trackApp (key : Nat) : Api Handle := do
  let appId ← onApps fun _ => Handles.add key
  modify fun lib => {lib with appIds := lib.appIds ++ [appId],standing := lib.standing ++ [appId]}
  return appId

def trackSession (appId : Handle) (ptr : SessionPtr) : Api Handle := do
  let sid ← onSessions fun _ => Handles.add ptr
  modify fun lib => {lib with sessionIds := lib.sessionIds ++ [(sid,appId)]}
  return sid

def trackManifest (sid : Handle) (ptr : ManifestPtr) : Api Handle := do
  let mid ← onManifests fun _ => Handles.add ptr
  modify fun lib => {lib with manifestIds := lib.manifestIds ++ [(mid,sid)]}
  return mid

def removeAppId (appId : Handle) : Api Unit :=
  modify fun lib => {lib.forgetApp appId with standing := lib.standing.filter (· ≠ appId)}

def tried (outcome : Except String α) : Api α :=
  match outcome with
  | .ok value => pure value
  | .error message => throw message

def makeApp (keeps : Bool) (made : Except String Transfer.App) : Api Nat := do
  let app ← tried made
  modifyGet fun lib => (lib.made,lib.entered app keeps)

-- EproxySLURMFrontend::launch returns before it gets to m_apps.emplace.
def launch (frontend : FrontendClass) (made : Except String Transfer.App) : Api Nat :=
  makeApp (frontend ≠ .EproxySLURM) made

def launchBarrier (made : Except String Transfer.App) : Api Nat := makeApp true made

def registerJob (made : Except String Transfer.App) : Api Nat := makeApp true made

-- What finalize throws is written to the log. With an application go its sessions.
def removeApp (key : Nat) : Api Unit := modify (·.withoutApp key)

def launchApp (frontend : FrontendClass) (made : Except String Transfer.App) : Api Handle := do
  trackApp (← launch frontend made)

def launchAppBarrier (made : Except String Transfer.App) : Api Handle := do
  trackApp (← launchBarrier made)

def registerApp (made : Except String Transfer.App) : Api Handle := do
  trackApp (← registerJob made)

def appIsValid (appId : Handle) (running : Except String Bool) : Api Bool := do
  if ← validApp appId then
    let key ← getApp appId
    if ← tried running then return true
    else
      removeApp key
      removeAppId appId
      return false
  else return false

def deregisterApp (appId : Handle) : Api Unit := do
  let key ← getApp appId
  removeApp key
  removeAppId appId

def releaseApp (appId : Handle) (response : Except String Unit) : Api Unit := do
  tried response
  removeAppId appId

section Sessions
variable (host : Transfer.Host)

def onWorld (ptr : SessionPtr) (act : Transfer.App → Transfer.WorldM α) : Api α := fun lib =>
  match lib.apps.find ptr.app,lib.world ptr with
  | some object,some w =>
    match act object.app w with
    | .ok value w' => .ok value (lib.withWorld ptr w')
    | .error message w' => .error message (lib.withWorld ptr w')
  | _,_ => .error "Owning Session is no longer valid." lib

def createSession (appId : Handle) (stageName wlmType : String) : Api Handle := do
  let key ← getApp appId
  let session ← modifyGet fun lib => (lib.made,lib.withSession key stageName wlmType)
  trackSession appId ⟨key,session⟩

-- App::removeSession. A session that has started something is cleaned up first.
def removeSession (ptr : SessionPtr) (cleaned : Option String) : Api Unit := do
  let lib ← get
  match lib.apps.find ptr.app,lib.world ptr with
  | some object,some w =>
    match Transfer.finalizeArgs object.app w.session,cleaned with
    | some _,some message => throw message
    | _,_ => modify (·.withoutSession ptr)
  | _,_ => throw "Owning app is no longer valid."

def destroySession (sid : Handle) (cleaned : Option String) : Api Unit := do
  let ptr ← getSession sid
  removeSession ptr cleaned
  modify (·.forgetSession sid)

def sessionIsValid (sid : Handle) : Api Bool := onSessions fun alive => Handles.isValid alive sid

def createManifest (sid : Handle) : Api Handle := do
  let ptr ← getSession sid
  let mani ← onWorld ptr fun _ => Transfer.createManifest
  trackManifest sid ⟨ptr,mani⟩

def manifestIsValid (mid : Handle) : Api Bool := onManifests fun alive => Handles.isValid alive mid

def addManifest (mid : Handle) (call : AddCall) : Api Unit := do
  let ptr ← getManifest mid
  onWorld ptr.session fun _ => Transfer.addTo host ptr.mani call

def sendManifest (mid : Handle) (delivery : Delivery) : Api Unit := do
  let ptr ← getManifest mid
  onWorld ptr.session fun app => Transfer.sendManifest host app delivery ptr.mani
  modify (·.forgetManifest mid)

def execToolDaemon (mid : Handle) (delivery : Delivery) (daemon : String) (daemonArgs envVars : Option (List String)) :
    Api Unit := do
  let ptr ← getManifest mid
  onWorld ptr.session fun app => Transfer.execManifest host app delivery ptr.mani daemon daemonArgs envVars
  modify (·.forgetManifest mid)

end Sessions

-- What a client can call, with what the world outside answers. A launch comes with
-- the application it makes or the exception it ends in, and the calls that look
-- something up without changing it are one.
inductive Call where
  | launchApp (made : Except String Transfer.App)
  | launchAppBarrier (made : Except String Transfer.App)
  | registerApp (made : Except String Transfer.App)
  | appIsValid (appId : Handle) (running : Except String Bool)
  | deregisterApp (appId : Handle)
  | releaseApp (appId : Handle) (response : Except String Unit)
  | useApp (appId : Handle)
  | createSession (appId : Handle) (stageName wlmType : String)
  | destroySession (sid : Handle) (cleaned : Option String)
  | sessionIsValid (sid : Handle)
  | useSession (sid : Handle)
  | createManifest (sid : Handle)
  | manifestIsValid (mid : Handle)
  | addManifest (mid : Handle) (call : AddCall)
  | sendManifest (mid : Handle) (delivery : Delivery)
  | execToolDaemon (mid : Handle) (delivery : Delivery) (daemon : String) (daemonArgs envVars : Option (List String))

section Running
variable (host : Transfer.Host) (frontend : FrontendClass)

def Call.perform : Call → Api Unit
  | .launchApp made => do let _ ← Interface.launchApp frontend made
  | .launchAppBarrier made => do let _ ← Interface.launchAppBarrier made
  | .registerApp made => do let _ ← Interface.registerApp made
  | .appIsValid appId running => do let _ ← Interface.appIsValid appId running
  | .deregisterApp appId => Interface.deregisterApp appId
  | .releaseApp appId response => Interface.releaseApp appId response
  | .useApp appId => do let _ ← getApp appId
  | .createSession appId stageName wlmType => do let _ ← Interface.createSession appId stageName wlmType
  | .destroySession sid cleaned => Interface.destroySession sid cleaned
  | .sessionIsValid sid => do let _ ← Interface.sessionIsValid sid
  | .useSession sid => do let _ ← getSession sid
  | .createManifest sid => do let _ ← Interface.createManifest sid
  | .manifestIsValid mid => do let _ ← Interface.manifestIsValid mid
  | .addManifest mid call => Interface.addManifest host mid call
  | .sendManifest mid delivery => Interface.sendManifest host mid delivery
  | .execToolDaemon mid delivery daemon daemonArgs envVars => Interface.execToolDaemon host mid delivery daemon daemonArgs envVars

def Call.hands : Call → Option Handle
  | .sendManifest mid _ => some mid
  | .execToolDaemon mid _ _ _ _ => some mid
  | _ => none

def Library.next (lib : Library) (call : Call) : Library :=
  let lib' := after (call.perform host frontend lib)
  {lib' with spent := lib'.spent ++ (call.hands.filter fun mid => decide (mid ∈ lib.manifestIds.map Prod.fst)).toList}

end Running

end CommonTools.Interface
