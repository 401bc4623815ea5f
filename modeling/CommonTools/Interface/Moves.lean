import CommonTools.Interface.Ownership

namespace CommonTools.Interface
open OrderedMaps Programs
open Handles hiding add
open Transfer (World AddCall Delivery)

namespace Library
variable {lib : Library}

def appAt (lib : Library) (appId : Handle) : Option Nat := lib.appHandles.held lib.appAlive appId

def sessionAt (lib : Library) (sid : Handle) : Option SessionPtr := lib.sessionHandles.held lib.sessionAlive sid

def manifestAt (lib : Library) (mid : Handle) : Option ManifestPtr := lib.manifestHandles.held lib.manifestAlive mid

def tells (lib : Library) (question : Api Bool) : Bool :=
  match question lib with
  | .ok answer _ => answer
  | .error _ _ => false

theorem tells_ok (answered : question lib = .ok answer lib') : lib.tells question = answer := by
  unfold tells
  rw [answered]

end Library

section Lookups
variable {lib : Library}

theorem onApps_ok (done : act lib.appAlive lib.appHandles = .ok value handles) :
    onApps act lib = .ok value {lib with appHandles := handles} := by
  unfold onApps
  simp only [done]

theorem onApps_error (failed : act lib.appAlive lib.appHandles = .error message handles) :
    onApps act lib = .error message {lib with appHandles := handles} := by
  unfold onApps
  simp only [failed]

theorem onSessions_ok (done : act lib.sessionAlive lib.sessionHandles = .ok value handles) :
    onSessions act lib = .ok value {lib with sessionHandles := handles} := by
  unfold onSessions
  simp only [done]

theorem onSessions_error (failed : act lib.sessionAlive lib.sessionHandles = .error message handles) :
    onSessions act lib = .error message {lib with sessionHandles := handles} := by
  unfold onSessions
  simp only [failed]

theorem onManifests_ok (done : act lib.manifestAlive lib.manifestHandles = .ok value handles) :
    onManifests act lib = .ok value {lib with manifestHandles := handles} := by
  unfold onManifests
  simp only [done]

theorem onManifests_error (failed : act lib.manifestAlive lib.manifestHandles = .error message handles) :
    onManifests act lib = .error message {lib with manifestHandles := handles} := by
  unfold onManifests
  simp only [failed]

theorem getApp_held (held : lib.appAt appId = some key) : getApp appId lib = .ok key lib := onApps_ok (getHandle_held held)

theorem validApp_eq : validApp appId lib =
    .ok (lib.appAt appId).isSome (if (lib.appAt appId).isSome then lib else lib.forgetApp appId) := by
  refine (onApps_ok isValid_eq).trans ?_
  unfold Library.appAt Library.forgetApp
  split <;> rfl

theorem sessionIsValid_eq : sessionIsValid sid lib =
    .ok (lib.sessionAt sid).isSome (if (lib.sessionAt sid).isSome then lib else lib.forgetSession sid) := by
  refine (onSessions_ok isValid_eq).trans ?_
  unfold Library.sessionAt Library.forgetSession
  split <;> rfl

theorem manifestIsValid_eq : manifestIsValid mid lib =
    .ok (lib.manifestAt mid).isSome (if (lib.manifestAt mid).isSome then lib else lib.forgetManifest mid) := by
  refine (onManifests_ok isValid_eq).trans ?_
  unfold Library.manifestAt Library.forgetManifest
  split <;> rfl

theorem appIsValid_running : lib.tells (appIsValid appId (.ok true)) = (lib.appAt appId).isSome := by
  have asked : validApp appId lib = _ := validApp_eq
  cases found : lib.appAt appId with
  | none =>
    rw [found] at asked
    exact Library.tells_ok (bind_ok.mpr ⟨_,_,asked,rfl⟩)
  | some key =>
    rw [found] at asked
    exact Library.tells_ok (bind_ok.mpr ⟨_,_,asked,bind_ok.mpr ⟨_,_,getApp_held found,rfl⟩⟩)

end Lookups

section Trees
variable {lib : Library}

namespace Library

theorem apps_revise :
    (lib.revise key change).apps.find other = if other = key then (lib.apps.find key).map change else lib.apps.find other := by
  unfold revise
  by_cases same : other = key
  · subst same
    cases found : lib.apps.find other <;> simp [found]
  · cases lib.apps.find key <;> simp [same]

theorem world_some (found : lib.world ptr = some w) :
    ∃ object, lib.apps.find ptr.app = some object ∧ object.sessions.find ptr.session = some w :=
  Option.bind_eq_some_iff.mp found

theorem revise_alive : (lib.revise key change).appAlive = lib.appAlive := by
  funext other
  unfold appAlive
  rw [apps_revise]
  split
  · rename_i same; rw [same,Option.isSome_map]
  · rfl

-- A change to one session of the application is one to that place in the library.
theorem world_revised (filed : ∀ object session, (change object).sessions.find session =
      if session = ptr.session then placed object else object.sessions.find session) :
    (lib.revise ptr.app change).world other = if other = ptr then (lib.apps.find ptr.app).bind placed else lib.world other := by
  unfold world
  rw [apps_revise]
  by_cases app : other.app = ptr.app
  · by_cases session : other.session = ptr.session
    · have same : other = ptr := by cases other; cases ptr; simp_all
      simp [same,Option.bind_map,filed,Function.comp_def]
    · have differs : other ≠ ptr := fun same => session (by rw [same])
      simp [app,session,differs,Option.bind_map,filed,Function.comp_def]
  · have differs : other ≠ ptr := fun same => app (by rw [same])
    simp [app,differs]

theorem withWorld_world (found : lib.world ptr = some old) (w : World) (other : SessionPtr) :
    (lib.withWorld ptr w).world other = if other = ptr then some w else lib.world other := by
  obtain ⟨object,owner,_⟩ := world_some found
  refine (world_revised fun _ _ => OrderedMap.find_insert).trans ?_
  rw [owner]
  rfl

theorem withoutSession_world (ptr other : SessionPtr) :
    (lib.withoutSession ptr).world other = if other = ptr then none else lib.world other := by
  refine (world_revised fun _ _ => OrderedMap.find_erase).trans ?_
  rw [Option.bind_fun_none]

end Library

end Trees

section Moves

namespace Library

def tracked (lib : Library) (app : Transfer.App) (keeps : Bool) : Library :=
  {lib.entered app keeps with
    appHandles := lib.appHandles.added lib.made
    appIds := lib.appIds ++ [lib.appHandles.lastId + 1]
    standing := lib.standing ++ [lib.appHandles.lastId + 1]}

def released (lib : Library) (appId : Handle) : Library :=
  {lib.forgetApp appId with standing := lib.standing.filter (· ≠ appId)}

def dropped (lib : Library) (key : Nat) (appId : Handle) : Library := (lib.withoutApp key).released appId

def opened (lib : Library) (key : Nat) (appId : Handle) (stageName wlmType : String) : Library :=
  {lib.withSession key stageName wlmType with
    sessionHandles := lib.sessionHandles.added ⟨key,lib.made⟩
    sessionIds := lib.sessionIds ++ [(lib.sessionHandles.lastId + 1,appId)]}

def closed (lib : Library) (ptr : SessionPtr) (sid : Handle) : Library := (lib.withoutSession ptr).forgetSession sid

def created (lib : Library) (ptr : SessionPtr) (w : World) (sid : Handle) : Library :=
  {lib.withWorld ptr w.created with
    manifestHandles := lib.manifestHandles.added ⟨ptr,w.manifests.length⟩
    manifestIds := lib.manifestIds ++ [(lib.manifestHandles.lastId + 1,sid)]}

def handed (lib : Library) (ptr : SessionPtr) (w : World) (mid : Handle) (returned : Bool) : Library :=
  if returned then (lib.withWorld ptr w).forgetManifest mid else lib.withWorld ptr w

end Library

def Call.shipment (mani : Nat) : Call → Option Transfer.Call
  | .sendManifest _ delivery => some (.sendManifest delivery mani)
  | .execToolDaemon _ delivery daemon daemonArgs envVars => some (.execManifest delivery mani daemon daemonArgs envVars)
  | _ => none

variable (host : Transfer.Host) (frontend : FrontendClass)

inductive Moves (lib : Library) : Call → Library → Prop where
  | same (idle : call.hands = none) : Moves lib call lib
  | lostApp (idle : call.hands = none) (unheld : lib.appAt appId = none) : Moves lib call (lib.forgetApp appId)
  | lostSession (idle : call.hands = none) (unheld : lib.sessionAt sid = none) : Moves lib call (lib.forgetSession sid)
  | lostManifest (idle : call.hands = none) (unheld : lib.manifestAt mid = none) : Moves lib call (lib.forgetManifest mid)
  | launched : Moves lib (.launchApp (.ok app)) (lib.tracked app (frontend ≠ .EproxySLURM))
  | stopped : Moves lib (.launchAppBarrier (.ok app)) (lib.tracked app true)
  | registered : Moves lib (.registerApp (.ok app)) (lib.tracked app true)
  | dropped (idle : call.hands = none) (held : lib.appAt appId = some key) : Moves lib call (lib.dropped key appId)
  | released : Moves lib (.releaseApp appId (.ok ())) (lib.released appId)
  | opened (held : lib.appAt appId = some key) :
      Moves lib (.createSession appId stageName wlmType) (lib.opened key appId stageName wlmType)
  | closed (idle : call.hands = none) (held : lib.sessionAt sid = some ptr) : Moves lib call (lib.closed ptr sid)
  | created (held : lib.sessionAt sid = some ptr) (found : lib.world ptr = some w) :
      Moves lib (.createManifest sid) (lib.created ptr w sid)
  | added (held : lib.manifestAt mid = some ptr) (found : lib.world ptr.session = some w)
      (owner : lib.apps.find ptr.session.app = some object) :
      Moves lib (.addManifest mid add) (lib.withWorld ptr.session ((Transfer.Call.add ptr.mani add).next host object.app w))
  | refused (hands : call.hands = some mid) (unheld : lib.manifestAt mid = none) : Moves lib call (lib.forgetManifest mid)
  | handed (hands : call.hands = some mid) (held : lib.manifestAt mid = some ptr) (found : lib.world ptr.session = some w)
      (owner : lib.apps.find ptr.session.app = some object) (ships : call.shipment ptr.mani = some shipment) :
      Moves lib call (lib.handed ptr.session (shipment.next host object.app w) mid returned)

variable {lib : Library}

theorem sessionAt_world (held : lib.sessionAt sid = some ptr) : ∃ w, lib.world ptr = some w :=
  Option.isSome_iff_exists.mp (held_iff.mp held).2

theorem manifestAt_world (held : lib.manifestAt mid = some ptr) : ∃ w, lib.world ptr.session = some w ∧ ptr.mani ∈ w.session.manifests := by
  have living := (held_iff.mp held).2
  obtain ⟨w,found,owned⟩ := (Option.any_eq_true _ _).mp living
  exact ⟨w,found,of_decide_eq_true owned⟩

section
variable (owner : lib.apps.find ptr.app = some object) (found : lib.world ptr = some w)
include owner found

theorem onWorld_ok (done : act object.app w = .ok value w') : onWorld ptr act lib = .ok value (lib.withWorld ptr w') := by
  unfold onWorld
  simp only [owner,found,done]

theorem onWorld_error (failed : act object.app w = .error message w') : onWorld ptr act lib = .error message (lib.withWorld ptr w') := by
  unfold onWorld
  simp only [owner,found,failed]

theorem onWorld_after : after (onWorld ptr act lib) = lib.withWorld ptr (after (act object.app w)) := by
  cases done : act object.app w with
  | ok value w' => rw [onWorld_ok owner found done]; rfl
  | error message w' => rw [onWorld_error owner found done]; rfl

end

theorem getApp_moves (idle : call.hands = none)
    (rest : ∀ key, lib.appAt appId = some key → Moves host frontend lib call (after (next key lib))) :
    Moves host frontend lib call (after ((getApp appId >>= next) lib)) := by
  cases held : lib.appAt appId with
  | none =>
    obtain ⟨message,failed⟩ := getHandle_unheld held
    rw [getApp,bind_stopped (onApps_error failed)]
    exact .lostApp idle held
  | some key => rw [bind_after (getApp_held held)]; exact rest key held

theorem getSession_moves (idle : call.hands = none) (rest : ∀ ptr w object, lib.sessionAt sid = some ptr →
      lib.world ptr = some w → lib.apps.find ptr.app = some object → Moves host frontend lib call (after (next ptr lib))) :
    Moves host frontend lib call (after ((getSession sid >>= next) lib)) := by
  cases held : lib.sessionAt sid with
  | none =>
    obtain ⟨message,failed⟩ := getHandle_unheld held
    rw [getSession,bind_stopped (onSessions_error failed)]
    exact .lostSession idle held
  | some ptr =>
    obtain ⟨w,found⟩ := sessionAt_world held
    obtain ⟨object,owner,_⟩ := Library.world_some found
    rw [getSession,bind_after (onSessions_ok (getHandle_held held))]
    exact rest ptr w object held found owner

theorem getManifest_moves (lost : lib.manifestAt mid = none → Moves host frontend lib call (lib.forgetManifest mid))
    (rest : ∀ ptr w object, lib.manifestAt mid = some ptr → lib.world ptr.session = some w →
      lib.apps.find ptr.session.app = some object → Moves host frontend lib call (after (next ptr lib))) :
    Moves host frontend lib call (after ((getManifest mid >>= next) lib)) := by
  cases held : lib.manifestAt mid with
  | none =>
    obtain ⟨message,failed⟩ := getHandle_unheld held
    rw [getManifest,bind_stopped (onManifests_error failed)]
    exact lost held
  | some ptr =>
    obtain ⟨w,found,_⟩ := manifestAt_world held
    obtain ⟨object,owner,_⟩ := Library.world_some found
    rw [getManifest,bind_after (onManifests_ok (getHandle_held held))]
    exact rest ptr w object held found owner

theorem ship_moves {shipment : Nat → Transfer.Call} (hands : call.hands = some mid)
    (ships : ∀ mani, call.shipment mani = some (shipment mani)) (performs : call.perform host frontend = (do
      let ptr ← getManifest mid
      onWorld ptr.session fun app => (shipment ptr.mani).perform host app
      modify (·.forgetManifest mid))) : Moves host frontend lib call (after (call.perform host frontend lib)) := by
  rw [performs]
  refine getManifest_moves host frontend (.refused hands) fun ptr w object held found owner => ?_
  have moved : ∀ returned, Moves host frontend lib call
      (lib.handed ptr.session ((shipment ptr.mani).next host object.app w) mid returned) :=
    fun _ => .handed hands held found owner (ships ptr.mani)
  unfold Transfer.Call.next at moved
  cases done : (shipment ptr.mani).perform host object.app w with
  | ok value w' =>
    rw [done] at moved
    rw [bind_after (onWorld_ok owner found done)]
    exact moved true
  | error message w' =>
    rw [done] at moved
    rw [bind_stopped (onWorld_error owner found done)]
    exact moved false

theorem perform_moves : Moves host frontend lib call (after (call.perform host frontend lib)) := by
  cases call with
  | launchApp made =>
    cases made with
    | error message => exact .same rfl
    | ok app => exact .launched
  | launchAppBarrier made =>
    cases made with
    | error message => exact .same rfl
    | ok app => exact .stopped
  | registerApp made =>
    cases made with
    | error message => exact .same rfl
    | ok app => exact .registered
  | appIsValid appId running =>
    have asked : validApp appId lib = _ := validApp_eq
    change Moves host frontend lib _ (after ((Interface.appIsValid appId running >>= fun _ => pure ()) lib))
    rw [after_map]
    unfold Interface.appIsValid
    rw [bind_after asked]
    cases held : lib.appAt appId with
    | none => exact .lostApp rfl held
    | some key =>
      simp only [Option.isSome_some,if_true]
      rw [bind_after (getApp_held held)]
      cases running with
      | error message => exact .same rfl
      | ok answer =>
        cases answer with
        | true => exact .same rfl
        | false => exact .dropped rfl held
  | deregisterApp appId => exact getApp_moves host frontend rfl fun _ held => .dropped rfl held
  | releaseApp appId response =>
    cases response with
    | error message => exact .same rfl
    | ok done => exact .released
  | useApp appId => exact getApp_moves host frontend rfl fun _ _ => .same rfl
  | createSession appId stageName wlmType =>
    rw [Call.perform,after_map]
    exact getApp_moves host frontend rfl fun _ held => .opened held
  | destroySession sid cleaned =>
    refine getSession_moves host frontend rfl fun ptr w object held found owner => ?_
    have moved : Moves host frontend lib (.destroySession sid cleaned) (lib.closed ptr sid) := .closed rfl held
    unfold removeSession
    rw [bind_assoc,get_after]
    simp only [owner,found]
    cases Transfer.finalizeArgs object.app w.session with
    | none => exact moved
    | some args =>
      cases cleaned with
      | none => exact moved
      | some message => exact .same rfl
  | sessionIsValid sid =>
    rw [Call.perform,after_map,sessionIsValid_eq]
    cases held : lib.sessionAt sid with
    | none => exact .lostSession rfl held
    | some ptr => exact .same rfl
  | useSession sid => exact getSession_moves host frontend rfl fun _ _ _ _ _ _ => .same rfl
  | createManifest sid =>
    rw [Call.perform,after_map]
    refine getSession_moves host frontend rfl fun ptr w object held found owner => ?_
    have made : Transfer.createManifest w = .ok w.manifests.length w.created := rfl
    rw [bind_after (onWorld_ok owner found made)]
    exact .created held found
  | manifestIsValid mid =>
    rw [Call.perform,after_map,manifestIsValid_eq]
    cases held : lib.manifestAt mid with
    | none => exact .lostManifest rfl held
    | some ptr => exact .same rfl
  | addManifest mid add =>
    refine getManifest_moves host frontend (.lostManifest rfl) fun ptr w object held found owner => ?_
    rw [onWorld_after owner found]
    exact .added held found owner
  | sendManifest mid delivery | execToolDaemon mid delivery daemon daemonArgs envVars =>
    exact ship_moves host frontend rfl (fun _ => rfl) rfl

end Moves

end CommonTools.Interface
