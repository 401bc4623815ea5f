import CommonTools.Library.Credentials
import CommonTools.Applications.Calls

namespace CommonTools.FeDaemon
open OrderedMaps Programs

namespace Registry
variable (registry : Registry)

def Controls (pid : Pid) : Prop := ∃ mpirId instance', registry.mpirMap.find mpirId = some instance' ∧ instance'.launcherPid = pid

def Tracks (pid : Pid) : Prop := registry.Mentions pid ∨ registry.Controls pid

end Registry

section Tracking
variable {registry : Registry} {daemon : Daemon} {host : Host} {command : Command}
open Registry

theorem controls_adopt (controlled : (registry.adopt instance').Controls pid) : registry.Controls pid ∨ pid = instance'.launcherPid := by
  obtain ⟨mpirId,other,found,same⟩ := controlled
  unfold adopt emplaceMPIR at found
  split at found
  · exact .inl ⟨mpirId,other,found,same⟩
  · simp only [OrderedMap.find_insert] at found
    split at found
    · cases found; exact .inr same.symm
    · exact .inl ⟨mpirId,other,found,same⟩

theorem controls_effect (controlled : ((command.effect host registry).apply registry).Controls pid) :
    registry.Controls pid ∨ pid ∈ command.rises host registry := by
  have caused := effect_causes host command registry
  cases effect : command.effect host registry with
  | adopts instance' cleanUp =>
    rw [effect] at caused controlled
    have adopted : (registry.adopt instance').Controls pid := by cases cleanUp <;> exact controlled
    refine (controls_adopt adopted).imp id fun same => ?_
    simp [Command.rises,caused.2.1,same]
  | deregisters appId appPid =>
    rw [effect,Effect.apply,deregister,terminateApp_eq] at controlled
    exact .inl controlled
  | drops mpirId =>
    rw [effect] at controlled
    obtain ⟨other,instance',found,same⟩ := controlled
    simp only [Effect.apply,eraseMPIR,OrderedMap.find_erase] at found
    split at found
    · cases found
    · exact .inl ⟨other,instance',found,same⟩
  | _ => rw [effect] at controlled; exact .inl controlled

theorem tracks_next (tracked : (daemon.next happening).registry.Tracks pid) :
    daemon.registry.Tracks pid ∨ pid ∈ happening.rises daemon := by
  rcases tracked with mentioned | controlled
  · exact (mentions_next mentioned).imp .inl id
  · cases happening with
    | request host command =>
      obtain ⟨launching,served⟩ := serve_effect host command daemon
      rw [Daemon.next,served] at controlled
      exact (controls_effect controlled).imp .inr id
    | child code other =>
      obtain ⟨more,handled⟩ := handler_effect
      rw [Daemon.next,handled] at controlled
      exact .inl (.inr controlled)
    | removed appId =>
      rw [Daemon.next,Daemon.remove] at controlled
      split at controlled
      · exact .inl (.inr controlled)
      · exact .inl (.inr controlled)

end Tracking

section Numbering
variable (host : Host)

theorem registerAppPID_numbered (done : registerAppPID appPid registry = .ok appId registry') :
    appId = registry.lastId + 1 ∧ registry'.lastId = registry.lastId + 1 := by
  obtain ⟨_,rfl,rfl⟩ := registerAppPID_ok.mp done
  exact ⟨rfl,rfl⟩

theorem extractMPIRResult_numbered (done : extractMPIRResult host instance' registry = .ok result registry') :
    result.mpirId = registry.lastId + 1 ∧ registry'.lastId = registry.lastId + 1 := by
  obtain ⟨mpirId,one,registered,rest⟩ := bind_ok.mp done
  obtain ⟨proctable,two,read,last⟩ := bind_ok.mp rest
  obtain ⟨-,rfl⟩ := attempt_ok.mp read
  obtain ⟨same,newest⟩ := registerAppPID_numbered registered
  have kept : (two.emplaceMPIR mpirId instance').lastId = two.lastId := by
    unfold Registry.emplaceMPIR
    split <;> rfl
  cases last
  exact ⟨same,kept.trans newest⟩

theorem adopt_numbered {request : MPIRRequest} (done : request.adopt host instance' registry = .ok result registry') :
    result.mpirId = registry.lastId + 1 ∧ registry'.lastId = registry.lastId + 1 := by
  cases request with
  | launchMPIR data =>
    obtain ⟨_,_,noted,stopped⟩ := bind_ok.mp done
    cases noted
    obtain ⟨_,_,reached,running⟩ := bind_ok.mp stopped
    obtain ⟨-,rfl⟩ := attempt_ok.mp reached
    obtain ⟨mpirResult,_,extracted,last⟩ := bind_ok.mp running
    have numbered := extractMPIRResult_numbered host extracted
    cases last
    exact numbered
  | attachMPIR launcherName launcherPid => exact extractMPIRResult_numbered host done
  | launchMPIRShim shim data =>
    obtain ⟨mpirResult,_,extracted,last⟩ := bind_ok.mp done
    have numbered := extractMPIRResult_numbered host extracted
    cases last
    exact numbered

theorem perform_numbered (request : MPIRRequest) (done : request.perform host registry = .ok result registry') :
    result.mpirId = registry.lastId + 1 ∧ registry'.lastId = registry.lastId + 1 := by
  rw [MPIRRequest.perform_parts] at done
  obtain ⟨instance',_,obtained,adopted⟩ := bind_ok.mp done
  have same := silent_ok (MPIRRequest.obtain_silent host) obtained
  subst same
  exact adopt_numbered host adopted

theorem operate_numbered
    (done : operate host type command registry = .ok answer registry') (number : idOf type.family answer = some appId) :
    appId = registry.lastId + 1 ∧ registry'.lastId = registry.lastId + 1 := by
  cases type with
  | ForkExecvpApp =>
    cases command with
    | forkExecvpApp data =>
      cases number
      obtain ⟨_,_,forked,registered⟩ := bind_ok.mp done
      have same := silent_ok (MPIRRequest.forkExec_silent host data) forked
      subst same
      exact registerAppPID_numbered registered
    | _ => cases done
  | RegisterApp =>
    cases command with
    | registerApp appPid => cases number; exact registerAppPID_numbered done
    | _ => cases done
  | LaunchMPIR =>
    cases command with
    | launchMPIR data => cases number; exact perform_numbered host (.launchMPIR data) done
    | _ => cases done
  | LaunchMPIRShim =>
    cases command with
    | launchMPIRShim shim data => cases number; exact perform_numbered host (.launchMPIRShim shim data) done
    | _ => cases done
  | AttachMPIR =>
    cases command with
    | attachMPIR launcherName launcherPid => cases number; exact perform_numbered host (.attachMPIR launcherName launcherPid) done
    | _ => cases done
  | _ => cases number

theorem answer_issued {daemon : Daemon} {type : ReqType} {command : Command} (same : command.type = type) {answer : Answer type.family}
    (done : (operations host daemon.registry).run type command = .ok answer) (number : idOf type.family answer = some appId) :
    (daemon.serve host command).issued = daemon.issued ++ [appId] := by
  have answered : ∃ registry', operate host type command daemon.registry = .ok answer registry' := by
    have plain : operations host daemon.registry type command = .ok answer := by
      cases type with
      | Shutdown => cases number
      | _ => exact done
    unfold operations at plain
    cases ended : operate host type command daemon.registry with
    | ok given registry' => rw [ended] at plain; cases plain; exact ⟨registry',rfl⟩
    | error what registry' => rw [ended] at plain; cases plain
  obtain ⟨registry',ended⟩ := answered
  obtain ⟨rfl,newest⟩ := operate_numbered host ended number
  subst same
  simp [Daemon.serve,ended,newest]

theorem meant_type {wanted : Request} : wanted.meant.type = wanted.type := by cases wanted <;> rfl

end Numbering

end CommonTools.FeDaemon

namespace CommonTools.Applications
open FeDaemon OrderedMaps Programs Credentials List Frontend
open Interface (Handle Handles FrontendClass)

def Application.ids (app : Application) : List (Endpoint × Id) :=
  match app.kind with
  | .Localhost => []
  | .EproxySLURM => [(.here,app.daemonAppId),(.there app.remoteDaemon,app.remoteMpirId)]
  | _ => [(.here,app.daemonAppId)]

-- The ids last.
def Frontend.Few (frontend : Frontend) : Prop := (frontend.daemons .here).issued.length < 2 ^ 31

structure Frontend.Kept (frontend : Frontend) : Prop where
  proper : ∀ sent ∈ frontend.sent, sent.Proper
  numbered : (frontend.daemons .here).Numbered
  tables : frontend.registry.Consistent
  issues : (frontend.issued.filter fun issue => issue.endpoint = .here).map Issue.id = (frontend.daemons .here).issued
  owned : ∀ key app, frontend.apps.find key = some app → ∀ pair ∈ app.ids, ⟨some key,pair.1,pair.2⟩ ∈ frontend.issued
  released : ∀ pid ∈ frontend.released, ¬ frontend.registry.Tracks pid
  unstruck : frontend.struck = []

def Holding (key : Nat) (own : List (Endpoint × Id)) (frontend : Frontend) : Prop :=
  frontend.Few → frontend.Kept ∧ ∀ pair ∈ own, ⟨some key,pair.1,pair.2⟩ ∈ frontend.issued

instance weakensHolding (key : Nat) : Weakens (Holding key) where
  weakens := by
    intro less more frontend inside holding few
    obtain ⟨kept,issued⟩ := holding few
    exact ⟨kept,fun pair own => issued pair (inside own)⟩

section Advancing
variable {frontend : Frontend} {happening : Happening}

@[simp] theorem advance_here (frontend : Frontend) (happening : Happening) :
    (frontend.advance .here happening).daemons .here = (frontend.daemons .here).next happening := by
  simp [advance]

@[simp] theorem advance_there (frontend : Frontend) (remote : Nat) (happening : Happening) :
    (frontend.advance (.there remote) happening).daemons .here = frontend.daemons .here := by
  simp [advance]

theorem few_advance (few : (frontend.advance endpoint happening).Few) : frontend.Few := by
  cases endpoint with
  | here => exact lt_of_le_of_lt issued_grows few
  | there remote => rwa [Frontend.Few,advance_there] at few

theorem released_advance (kept : frontend.Kept) (gone : pid ∈ (frontend.advance endpoint happening).released) :
    ¬ (frontend.advance endpoint happening).registry.Tracks pid := by
  cases endpoint with
  | here =>
    obtain ⟨before,quiet⟩ := mem_without.mp gone
    intro tracked
    rcases tracks_next tracked with known | rises
    · exact kept.released pid before known
    · exact quiet rises
  | there remote => exact kept.released pid gone

theorem unstruck_advance (kept : frontend.Kept) : (frontend.advance endpoint happening).struck = [] := by
  have quiet : within (((frontend.daemons .here).sent happening).map Prod.fst) frontend.released = [] :=
    within_nil fun pid signalled gone => kept.released pid gone (.inl (signalled_mentioned signalled))
  simp [advance,kept.unstruck,quiet]

end Advancing

section Serving
variable {frontend : Frontend} {host : Host} {command : Command} {app : Option Nat} {key : Nat} {own : List (Endpoint × Id)}

theorem served_here : (frontend.served host app .here command).daemons .here = (frontend.daemons .here).serve host command :=
  advance_here frontend (.request host command)

theorem served_there : (frontend.served host app (.there remote) command).daemons .here = frontend.daemons .here :=
  advance_there frontend remote (.request host command)

theorem few_served (endpoint : Endpoint) (few : (frontend.served host app endpoint command).Few) : frontend.Few := few_advance few

theorem serve_appends {daemon : Daemon} :
    ∃ fresh, (daemon.serve host command).issued = daemon.issued ++ fresh := ⟨_,rfl⟩

theorem issues_served (kept : frontend.Kept) :
    ((frontend.served host app endpoint command).issued.filter fun issue => issue.endpoint = .here).map Issue.id =
      ((frontend.served host app endpoint command).daemons .here).issued := by
  obtain ⟨fresh,appended⟩ := serve_appends
  cases endpoint with
  | here =>
    rw [served_here,appended,← kept.issues]
    simp [served,appended,filter_map,Function.comp_def]
  | there remote =>
    rw [served_there,← kept.issues]
    simp [served,appended]

theorem tables_served (numbers : (frontend.daemons .here).Numbered) (tables : frontend.registry.Consistent) (few : frontend.Few)
    (sound : host.Sound) (nonNegative : ∀ appPid, command = .registerApp appPid → 0 ≤ appPid.toInt) :
    ((frontend.served host app endpoint command).daemons .here).Numbered ∧
      (frontend.served host app endpoint command).registry.Consistent := by
  cases endpoint with
  | here => exact ⟨numbered_serve numbers,consistent_serve tables numbers few sound nonNegative⟩
  | there remote => exact ⟨numbers,tables⟩

theorem kept_served (kept : frontend.Kept) (few : frontend.Few) (sound : host.Sound)
    (nonNegative : ∀ appPid, command = .registerApp appPid → 0 ≤ appPid.toInt)
    (target : ∀ id, command.target = some id → ∃ key ∈ app, ⟨some key,endpoint,id⟩ ∈ frontend.issued) :
    (frontend.served host app endpoint command).Kept := by
  obtain ⟨numbered,tables⟩ := tables_served kept.numbered kept.tables few sound nonNegative
  refine ⟨?_,numbered,tables,issues_served kept,?_,?_,?_⟩
  · intro sent inside
    rcases mem_append.mp inside with old | new
    · exact kept.proper sent old
    · cases mem_singleton.mp new
      exact target
  · intro other app found pair mine
    exact mem_append_left _ (kept.owned other app found pair mine)
  · intro pid gone
    exact released_advance kept gone
  · exact unstruck_advance kept

theorem holding_served (holding : Holding key own frontend) (sound : host.Sound)
    (nonNegative : ∀ appPid, command = .registerApp appPid → 0 ≤ appPid.toInt)
    (target : ∀ id, command.target = some id → (endpoint,id) ∈ own) :
    Holding key own (frontend.served host (some key) endpoint command) := by
  intro few'
  have few := few_served endpoint few'
  obtain ⟨kept,issued⟩ := holding few
  refine ⟨kept_served kept few sound nonNegative fun id aimed => ?_,fun pair mine => ?_⟩
  · exact ⟨key,rfl,issued (endpoint,id) (target id aimed)⟩
  · exact mem_append_left _ (issued pair mine)

end Serving

-- The ids that come with an answer, and with what the caller makes of it.
def numbers (endpoint : Endpoint) (family : Family) : Except CStr (Answer family) → List (Endpoint × Id)
  | .ok answer => (idOf family answer).toList.map fun id => (endpoint,id)
  | .error _ => []

def known (endpoint : Endpoint) (id : Id) : List (Endpoint × Id) := if id = 0 then [] else [(endpoint,id)]

def returnedIds (endpoint : Endpoint) : Returned → List (Endpoint × Id)
  | .id given => known endpoint given
  | .mpir result => [(endpoint,result.mpirId)]
  | _ => []

section Readings
variable (endpoint : Endpoint)

theorem seenID_ids (seen : seenID outcome = .ok value) : returnedIds endpoint value ⊆ numbers endpoint .id outcome := by
  cases outcome with
  | ok id =>
    simp only [seenID] at seen
    split at seen
    · cases seen
    · cases seen
      simp only [returnedIds,known]
      split <;> simp [numbers,idOf]
  | error message => cases seen; simp [returnedIds,known]

theorem seenMPIR_ids (seen : seenMPIR outcome = .ok value) : returnedIds endpoint value ⊆ numbers endpoint .mpir outcome := by
  cases outcome with
  | ok result =>
    simp only [seenMPIR] at seen
    split at seen
    · cases seen
    · cases seen; simp [returnedIds,numbers,idOf]
  | error message => cases seen

theorem verified_ids (seen : verified given outcome = .ok value) : value = given := by
  unfold verified at seen
  split at seen
  · cases seen; rfl
  · cases seen

theorem seen_ids {wanted : Request} {outcome : Except CStr (Answer wanted.type.family)} {value : Returned}
    (seen : wanted.seen outcome = .ok value) : returnedIds endpoint value ⊆ numbers endpoint wanted.type.family outcome := by
  have plain : ∀ {given : Returned} {tried : Except CStr Bool}, verified given tried = .ok value →
      returnedIds endpoint given = [] → returnedIds endpoint value ⊆ numbers endpoint wanted.type.family outcome := by
    intro given tried seen empty
    rw [verified_ids seen,empty]
    exact nil_subset _
  cases wanted with
  | forkExecvpApp launch | registerApp appPid => exact seenID_ids endpoint seen
  | launchMPIR launch | launchMPIRShim shimBinaryPath temporaryShimBinDir shimmedLauncherPath launch => exact seenMPIR_ids endpoint seen
  | attachMPIR launcherPath launcherPid => exact seenMPIR_ids endpoint seen
  | readStringMPIR mpirId name => cases outcome <;> cases seen; exact nil_subset _
  | checkApp appId => cases seen; exact nil_subset _
  | forkExecvpUtil appId runMode launch =>
    cases runMode with
    | asynchronous => exact plain seen rfl
    | synchronous => cases seen; exact nil_subset _
  | _ => exact plain seen rfl

end Readings

section Asking
variable {hosts : Nat → Host} {key : Nat} {own : List (Endpoint × Id)}

theorem gains_raised {κ : Type} {Holds : List κ → Frontend → Prop} [Weakens Holds] {own : List κ} {outcome : Except Failure α}
    {gain : α → List κ} (inside : ∀ value, outcome = .ok value → gain value ⊆ own) : Gains Holds own (raised outcome) gain := by
  cases outcome with
  | ok value => exact gains_pure (inside value rfl)
  | error failure => exact gains_throw

variable (sound : ∀ n, (hosts n).Sound)
include sound

theorem gains_ask (same : command.type = type) (nonNegative : ∀ appPid, command = .registerApp appPid → 0 ≤ appPid.toInt)
    (target : ∀ id, command.target = some id → (endpoint,id) ∈ own) :
    Gains (Holding key) own (ask hosts (some key) endpoint type command) (numbers endpoint type.family) := by
  intro frontend holding few
  obtain ⟨kept,issued⟩ := holding_served holding (sound frontend.sent.length) nonNegative target few
  refine ⟨kept,fun pair mine => ?_⟩
  rcases mem_append.mp mine with old | new
  · exact issued pair old
  · cases done : (operations (hosts frontend.sent.length) (frontend.daemons endpoint).registry).run type command with
    | error message => rw [done] at new; cases new
    | ok answer =>
      rw [done] at new
      obtain ⟨id,number,rfl⟩ := mem_map.mp new
      have appended := answer_issued _ same done (Option.mem_toList.mp number)
      simp [served,appended]

theorem gains_request {wanted : Request} (nonNegative : ∀ appPid, wanted = .registerApp appPid → 0 ≤ appPid.toInt)
    (target : ∀ id, wanted.meant.target = some id → (.here,id) ∈ own) :
    Gains (Holding key) own (request hosts (some key) wanted) (returnedIds .here) := by
  have given : ∀ appPid, wanted.meant = .registerApp appPid → 0 ≤ appPid.toInt := by
    intro appPid same
    cases wanted <;> cases same
    exact nonNegative appPid rfl
  refine gains_bind (gains_ask sound meant_type given target) fun outcome => ?_
  exact gains_raised fun value seen => subset_append_of_subset_right _ (seen_ids .here seen)

end Asking

end CommonTools.Applications
