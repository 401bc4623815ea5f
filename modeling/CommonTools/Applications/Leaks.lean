import CommonTools.Applications.NameSpaces
import CommonTools.Applications.Obtaining

namespace CommonTools.Applications
open FeDaemon Numerals OrderedMaps Programs Credentials List
open Interface (Handle Handles HandlesM FrontendClass)

def Tallying (making : Option Nat) (held : Option Id) (P : Frontend → Prop) (_ : List Unit) (frontend : Frontend) : Prop :=
  Tallied making held frontend ∧ P frontend

instance weakensTallying (making : Option Nat) (held : Option Id) (P : Frontend → Prop) : Weakens (Tallying making held P) :=
  ⟨fun _ _ _ _ tallied => tallied⟩

-- What class an object is of is settled when it is made.
def KindAt (key : Nat) (kind : FrontendClass) (frontend : Frontend) : Prop := ∀ app, frontend.apps.find key = some app → app.kind = kind

def Indifferent (_ : Frontend) : Prop := True

-- Something that requests do not touch, nor changes to an object that leave its class.
structure Steady (P : Frontend → Prop) : Prop where
  served : ∀ frontend host app endpoint command, P frontend → P (frontend.served host app endpoint command)
  revised : ∀ frontend other update, (∀ app : Application, (update app).kind = app.kind) → P frontend → P (frontend.revise other update)

section Lenience
variable {hosts : Nat → Host} {key : Nat} {frontend : Frontend} {making : Option Nat} {held : Option Id} {P : Frontend → Prop}

theorem kindAt_found (found : frontend.apps.find key = some app) : KindAt key app.kind frontend := by
  intro other there
  cases found.symm.trans there
  rfl

theorem kindAt_steady : Steady (KindAt key kind) := by
  refine ⟨fun _ _ _ _ _ kinds => kinds,fun frontend other update same kinds app found => ?_⟩
  obtain ⟨before,there,rfl | rfl⟩ := revise_found found
  · exact kinds app there
  · exact (same before).trans (kinds before there)

theorem indifferent_steady : Steady Indifferent := ⟨fun _ _ _ _ _ _ => trivial,fun _ _ _ _ _ => trivial⟩

theorem here_same {app app' : Application} (ids : app'.ids = app.ids) (kind : app'.kind = app.kind) : app'.here = app.here := by
  unfold Application.here
  unfold Application.ids at ids
  cases known : app.kind <;> simp_all

theorem tally_lenient (sound : ∀ n, (hosts n).Sound) (steady : Steady P) (ids : List (Endpoint × Id)) :
    Lenient hosts key (Tallying making held P) [] ids where
  asks := by
    intro endpoint type command same quiet target frontend tallied
    exact ⟨tally_quiet tallied.1 (sound _) quiet endpoint,steady.served _ _ _ _ _ tallied.2⟩
  revises := by
    intro other update ids kinds
    refine gains_modify fun frontend tallied => ⟨tally_revise tallied.1 fun app => here_same (ids app) (kinds app),?_⟩
    exact steady.revised frontend other update kinds tallied.2

theorem keeps_there (apart : ∀ frontend host app command, P frontend → P (frontend.served host app (.there remote) command))
    : Keeps (Tallying making held P) [] (ask hosts (some key) (.there remote) type command) :=
  fun _ tallied => ⟨tally_there tallied.1,apart _ _ _ _ tallied.2⟩

theorem keeps_ends (keeps : Keeps (Tallying making held P) [] act) (tallied : Tallied making held frontend)
    (given : P frontend) : Ends act frontend (fun _ after => Tallied making held after ∧ P after) fun after => Tallied making held after ∧ P after :=
  keeps frontend ⟨tallied,given⟩

theorem keeps_tallied (keeps : Keeps (Tallying making held Indifferent) [] act) (tallied : Tallied making held frontend) :
    Ends act frontend (fun _ => Tallied making held) (Tallied making held) :=
  ends_imp (keeps_ends keeps tallied trivial) (fun _ _ both => both.1) fun _ both => both.1

end Lenience

section Remote
variable {hosts : Nat → Host} {key : Nat} {frontend : Frontend} {making : Option Nat} {held : Option Id} {site : Site}

theorem keeps_remoteResult {P : Frontend → Prop}
    (apart : ∀ frontend host app command, P frontend → P (frontend.served host app (.there remote) command))
    {type : ReqType} {read : Except CStr (Answer type.family) → Except Failure Returned} :
    Keeps (Tallying making held P) []
      (do return (← raised (read (← ask hosts (some key) (.there remote) type command))).result : Work MPIRRead) :=
  keeps_bind (keeps_there apart) fun _ => keeps_bind (gains_raised fun _ _ => nil_subset _) fun _ => keeps_pure

theorem keeps_remoteLaunchMPIR (remote : Nat) (launch : Launch) :
    Keeps (Tallying making none Indifferent) [] (remoteLaunchMPIR hosts (some key) remote launch) :=
  keeps_remoteResult (fun _ _ _ _ _ => trivial)

theorem keeps_startRemote : Keeps (Tallying making none Indifferent) [] startRemoteDaemon :=
  fun _ tallied => ⟨tally_same tallied.1 rfl rfl rfl,trivial⟩

theorem keeps_sattachMPIR {Holds : List Unit → Frontend → Prop} [Weakens Holds] {launch : Launch → Work MPIRRead} {release : Id → Work Unit}
    (launches : ∀ job, Keeps Holds [] (launch job)) (releases : ∀ mpirId, Keeps Holds [] (release mpirId)) (jobs : List Launch)
    (result : MPIRRead) : Keeps Holds [] (sattachMPIR launch release result jobs) := by
  induction jobs generalizing result with
  | nil => exact keeps_pure
  | cons job jobs ih =>
    refine keeps_bind (launches job) fun newest => keeps_bind ?_ fun mpirId => ih _
    unfold keptSession
    split
    · exact keeps_pure
    · exact keeps_bind (releases _) fun _ => keeps_pure

variable (sound : ∀ n, (hosts n).Sound)
include sound

theorem keeps_stopping : Keeps (Tallying making held Indifferent) [] (stopRemoteDaemon hosts (some key) remote) :=
  keeps_stopRemote (tally_lenient sound indifferent_steady []) remote

theorem keeps_launchingRemotely {remote : Nat} {launch : Launch} :
    Keeps (Tallying making none Indifferent) [] (launchRemotely hosts key remote launch) := by
  refine keeps_bind (keeps_remoteLaunchMPIR remote launch) fun result => ?_
  have lenient : Lenient hosts key (Tallying making none Indifferent) [] [(.there remote,result.mpirId)] :=
    tally_lenient sound indifferent_steady _
  refine keeps_bind (keeps_remoteReadString lenient (by simp)) fun _ => ?_
  exact keeps_bind (keeps_remoteReadString lenient (by simp)) fun _ => keeps_pure

theorem keeps_attachingRemotely (remote : Nat) (jobs : List Launch) :
    Keeps (Tallying making none Indifferent) [] (sattachMPIRRemote hosts key remote jobs) := by
  refine keeps_sattachMPIR (keeps_remoteLaunchMPIR remote) (fun mpirId => ?_) jobs noResult
  have lenient : Lenient hosts key (Tallying making none Indifferent) [] [(.there remote,mpirId)] :=
    tally_lenient sound indifferent_steady _
  exact keeps_remoteRelease lenient (by simp)

theorem ends_newEproxySLURMApp (tallied : Tallied making none frontend) :
    Ends (newEproxySLURMApp hosts key remote mpirId jobId stepId site) frontend
      (fun app after => app.kind = .EproxySLURM ∧ Tallied making app.here after) (Tallied making none) := by
  have lenient : Lenient hosts key (Tallying making none Indifferent) [] [(.here,mpirId)] := tally_lenient sound indifferent_steady _
  have part : Keeps (Tallying making none Indifferent) [] (newSLURMApp hosts key .EproxySLURM mpirId jobId stepId site) :=
    gains_newSLURMApp lenient _ (by simp) _ _ _ (nil_subset _)
  refine ends_bind (keeps_tallied (gains_unwinding part (keeps_stopping sound)) tallied) fun _ after kept => ?_
  have cleans : Keeps Exhausted [] (do
      stopRemoteDaemon hosts (some key) remote
      quietly (request hosts (some key) (.deregisterApp mpirId))) :=
    keeps_bind exhausted_stop fun _ => keeps_quietly exhausted_request
  refine ends_bind (ends_lax (ends_unwinding (ends_registering sound (.inl rfl) (by decide) kept) fun after gone => ?_))
    fun appId after done => ⟨rfl,done.1⟩
  exact cleans after gone

theorem ends_launchEproxy {launch : Launch} (tallied : Tallied making none frontend) : Ends (launchEproxy hosts key launch site) frontend
      (fun app after => app.kind = .EproxySLURM ∧ Tallied making app.here after) (Tallied making none) := by
  refine ends_bind (keeps_tallied keeps_startRemote tallied) fun remote after kept => ?_
  refine ends_bind (keeps_tallied (gains_unwinding (keeps_launchingRemotely sound) (keeps_stopping sound)) kept)
    fun job after kept => ?_
  exact ends_newEproxySLURMApp sound kept

theorem ends_registerEproxy {jobId stepId : Nat} (tallied : Tallied making none frontend) :
    Ends (registerEproxy hosts key jobId stepId jobs site) frontend
      (fun app after => app.kind = .EproxySLURM ∧ Tallied making app.here after) (Tallied making none) := by
  refine ends_bind (keeps_tallied keeps_startRemote tallied) fun remote after kept => ?_
  refine ends_bind (keeps_tallied (gains_unwinding (keeps_attachingRemotely sound remote jobs) (keeps_stopping sound)) kept)
    fun result after kept => ?_
  exact ends_newEproxySLURMApp sound kept

end Remote

-- Where nothing goes wrong between an id and its object. A launcher shows its table
-- and its texts, what the constructor meets after the id has been issued is in order,
-- and a job has one component.
def Launching.Careful (hosts : Nat → Host) (frontend : Frontend) : Launching → Prop
  | .slurm _ _ site => (∀ n, (hosts n).Obliging) ∧ site.Clear ∧ site.wrapper = none
  | .ssh _ _ site => (∀ n, (hosts n).Obliging) ∧ site.Clear
  | .alps aprunPid _ site => frontend.registry.Free aprunPid.1 ∧ site.finished = none
  | .pals _ mkdir site => (∀ n, (hosts n).Obliging) ∧ site.Clear ∧ ∀ n, (hosts n).Runs mkdir.launch.meant
  | .flux _ site => site.Clear
  | .eproxy _ _ | .localhost _ => True

def Registering.Careful (hosts : Nat → Host) (frontend : Frontend) : Registering → Prop
  | .slurm _ _ others site => (∀ n, (hosts n).Obliging) ∧ site.Clear ∧ site.wrapper = none ∧ others = []
  | .ssh _ _ site => (∀ n, (hosts n).Obliging) ∧ site.Clear
  | .sshRemote _ _ ours site => frontend.registry.Free ours.1 → site.Clear
  | .alps aprunPid site => frontend.registry.Free aprunPid.1 ∧ site.finished = none
  | .pals mkdir site => site.Clear ∧ ∀ n, (hosts n).Runs mkdir.launch.meant
  | .flux site => site.Clear
  | .eproxy _ _ _ _ _ | .localhost _ => True

section Making
variable {hosts : Nat → Host} {key : Nat} {frontend : Frontend} {making : Option Nat} (sound : ∀ n, (hosts n).Sound)

theorem ready_plain (tallied : Tallied making app.here frontend)
    (kind : app.kind = .EproxySLURM ∨ app.kind = .ALPS ∨ app.kind = .Flux ∨ app.kind = .Localhost) : Ready making app frontend := by
  refine ⟨tallied,fun eproxy alps flux localhost => ?_,fun pals => ?_⟩
  · rcases kind with kind | kind | kind | kind
    · exact absurd kind eproxy
    · exact absurd kind alps
    · exact absurd kind flux
    · exact absurd kind localhost
  · rw [pals] at kind
    simp at kind

theorem ends_newLocalhostApp {site : Site} (tallied : Tallied making none frontend) :
    Ends (newLocalhostApp site) frontend (fun app after => app.kind = .Localhost ∧ Tallied making app.here after) (Tallied making none) := by
  unfold newLocalhostApp
  cases site.settled with
  | none => exact ⟨rfl,tallied⟩
  | some failure => exact tallied

include sound

section
variable (obliging : ∀ n, (hosts n).Obliging)
include obliging

theorem ends_launchUnder {shim : Option (CStr × CStr × CStr)} {launch : Launch} (tallied : Tallied making none frontend) :
    Ends (launchUnder hosts key shim launch) frontend (Launched making) (Tallied making none) := by
  obtain ⟨wanted,same⟩ := launchUnder_seeks
  rw [same]
  exact ends_seeking sound obliging tallied

theorem ends_srunMPIR {srun : Srun} (tallied : Tallied making none frontend) :
    Ends (srunMPIR hosts key srun) frontend (Launched making) (Tallied making none) := by
  refine ends_bind (ends_launchUnder sound obliging tallied) fun result after launched => ?_
  split
  · exact launched
  · rw [if_neg launched.some,if_neg]
    · exact launched
    · simpa using launched.pids

theorem ends_launchSLURM (clear : site.Clear) (bare : site.wrapper = none) (tallied : Tallied making none frontend) :
    Ends (launchSLURM hosts key hpcm started site) frontend (Ready making) (Tallied making none) := by
  refine ends_bind (ends_srunMPIR sound obliging tallied) fun result after launched => ?_
  refine ends_lax (ends_imp (ends_newSLURMApp sound obliging clear bare launched.named launched.tallied launched.holds) ?_ fun _ gone => gone)
  rintro app after ⟨rfl,kept,holds⟩
  cases hpcm with
  | true | false => exact ⟨kept,fun _ _ _ _ => holds,nofun⟩

theorem ends_launchSSH {shim : Option (CStr × CStr × CStr)} {launch : Launch}
    (clear : site.Clear) (tallied : Tallied making none frontend) :
    Ends (launchSSH hosts key shim launch site) frontend (Ready making) (Tallied making none) := by
  refine ends_bind (ends_launchUnder sound obliging tallied) fun result after launched => ?_
  refine ends_lax (ends_imp (ends_newGenericSSHApp clear fun _ => launched.named) ?_ fun _ gone => gone)
  rintro app after ⟨rfl,rfl⟩
  exact ⟨launched.tallied,fun _ _ _ _ => launched.holds,nofun⟩

theorem ends_launchPALS {launch : Launch} (clear : site.Clear)
    (runs : ∀ n, (hosts n).Runs mkdir.launch.meant) (tallied : Tallied making none frontend) :
    Ends (launchPALS hosts key launch mkdir site) frontend (Ready making) (Tallied making none) := by
  unfold launchPALS
  rw [launching_seeks]
  refine ends_bind (ends_seeking sound obliging tallied) fun result after launched => ?_
  refine ends_lax (ends_bind (ends_readString sound obliging launched.tallied launched.holds) fun text after read => ?_)
  refine ends_imp (ends_newPALSApp sound clear runs read.2.1) ?_ fun _ gone => gone
  rintro app last ⟨rfl,kept,holds⟩
  exact ⟨kept,fun _ _ _ _ => holds _ read.2.2,fun _ => rfl⟩

end

theorem ends_launching {launching : Launching} (careful : launching.Careful hosts frontend) (tallied : Tallied making none frontend) :
    Ends (launching.application hosts key) frontend (Ready making) (Tallied making none) := by
  cases launching with
  | slurm hpcm started site => exact ends_launchSLURM sound careful.1 careful.2.1 careful.2.2 tallied
  | eproxy launch site =>
    exact ends_imp (ends_launchEproxy sound tallied) (fun _ _ done => ready_plain done.2 (.inl done.1)) fun _ kept => kept
  | ssh shim launch site => exact ends_launchSSH sound careful.1 careful.2 tallied
  | alps aprunPid wrapper site =>
    exact ends_imp (ends_launchAprun sound careful.1 careful.2 tallied)
      (fun _ _ done => ready_plain done.2 (.inr (.inl done.1))) fun _ kept => kept
  | pals launch mkdir site => exact ends_launchPALS sound careful.1 careful.2.1 careful.2.2 tallied
  | flux attachPid site =>
    exact ends_lax (ends_imp (ends_newFluxApp sound careful tallied)
      (fun _ _ done => ready_plain done.2 (.inr (.inr (.inl done.1)))) fun _ gone => gone)
  | localhost site =>
    exact ends_imp (ends_newLocalhostApp tallied) (fun _ _ done => ready_plain done.2 (.inr (.inr (.inr done.1)))) fun _ kept => kept

theorem ends_registerSLURM (obliging : ∀ n, (hosts n).Obliging) {hpcm : Bool} {first : Launch} (clear : site.Clear)
    (bare : site.wrapper = none) (tallied : Tallied making none frontend) :
    Ends (registerSLURM hosts key hpcm [first] site) frontend (fun app => Tallied making app.here) (Tallied making none) := by
  have attached : Ends (sattachMPIRLocal hosts key [first]) frontend
      (fun result after => result.mpirId ≠ 0 ∧ Tallied making (some result.mpirId) after ∧ after.Holds result.mpirId)
      (Tallied making none) := by
    unfold sattachMPIRLocal sattachMPIR
    rw [launching_seeks]
    refine ends_bind (ends_seeking sound obliging tallied) fun result after launched => ?_
    -- The first component's session is the one that is kept.
    exact ⟨launched.named,launched.tallied,launched.holds⟩
  refine ends_bind attached fun result after done => ?_
  refine ends_lax (ends_imp (ends_newSLURMApp sound obliging clear bare done.1 done.2.1 done.2.2) ?_ fun _ gone => gone)
  rintro app after ⟨rfl,kept,_⟩
  cases hpcm with
  | true | false => exact kept

theorem ends_registerRemoteJob {launcherName : CStr} {launcherPid : Pid} {site : Site}
    (careful : frontend.registry.Free ours.1 → site.Clear) (tallied : Tallied making none frontend) :
    Ends (registerRemoteJob hosts key launcherName launcherPid ours site) frontend (fun app => Tallied making app.here)
      (Tallied making none) := by
  -- What goes on over there leaves the registry here as it is.
  let P : Frontend → Prop := fun after => after.registry = frontend.registry
  have apart : ∀ remote frontend host app command, P frontend → P (frontend.served host app (.there remote) command) := by
    intro remote frontend host app command same
    change (Frontend.registry _) = _
    exact same
  have started : Ends startRemoteDaemon frontend (fun _ after => Tallied making none after ∧ P after) (Tallied making none) :=
    ⟨tally_same tallied rfl rfl rfl,rfl⟩
  refine ends_bind started fun remote after begun => ?_
  have attached : Keeps (Tallying making none P) [] (remoteAttachMPIR hosts (some key) remote launcherName launcherPid) :=
    keeps_remoteResult (apart remote)
  have stopped : Keeps (Tallying making none P) [] (stopRemoteDaemon hosts (some key) remote) :=
    keeps_bind (keeps_there (apart remote)) fun _ => keeps_pure
  refine ends_bind (ends_imp (keeps_ends attached begun.1 begun.2) (fun _ _ both => both) fun _ both => both.1) fun _ after both => ?_
  refine ends_bind (ends_imp (keeps_ends stopped both.1 both.2) (fun _ _ both => both) fun _ both => both.1) fun _ after both => ?_
  obtain ⟨kept,same⟩ := both
  have nonNegative : 0 ≤ ours.1.toInt := Int.le_of_lt ours.2
  by_cases free : after.registry.Free ours.1
  · have clear := careful (same ▸ free)
    refine ends_lax (ends_bind (ends_registering sound free nonNegative kept) fun appId last done => ?_)
    refine ends_imp (ends_newGenericSSHApp clear done.2) ?_ fun _ gone => gone
    rintro app _ ⟨rfl,rfl⟩
    exact done.1
  · refine ends_bind (ends_imp (ends_refused sound free nonNegative kept) (fun _ _ done => done) fun _ wrong => wrong.elim) ?_
    rintro appId last ⟨rfl,kept⟩
    unfold newGenericSSHApp
    cases site.settled with
    | none | some failure => exact kept

theorem ends_registered {registering : Registering} (careful : registering.Careful hosts frontend) (tallied : Tallied making none frontend) :
    Ends (registering.application hosts key) frontend (fun app => Tallied making app.here) (Tallied making none) := by
  cases registering with
  | slurm hpcm first others site =>
    obtain ⟨obliging,clear,bare,rfl⟩ := careful
    exact ends_registerSLURM sound obliging clear bare tallied
  | eproxy jobId stepId first others site => exact ends_imp (ends_registerEproxy sound tallied) (fun _ _ done => done.2) fun _ kept => kept
  | ssh launcherPath launcherPid site =>
    change Ends (requestAttachMPIR hosts (some key) launcherPath launcherPid >>= _) _ _ _
    rw [attaching_seeks]
    refine ends_bind (ends_seeking sound careful.1 tallied) fun result after launched => ?_
    refine ends_lax (ends_imp (ends_newGenericSSHApp careful.2 fun _ => launched.named) ?_ fun _ gone => gone)
    rintro app after ⟨rfl,rfl⟩
    exact launched.tallied
  | sshRemote launcherName launcherPid ours site => exact ends_registerRemoteJob sound careful tallied
  | alps aprunPid site => exact ends_imp (ends_launchAprun sound careful.1 careful.2 tallied) (fun _ _ done => done.2) fun _ kept => kept
  | pals mkdir site =>
    refine ends_lax (ends_bind (ends_registering sound (.inl rfl) (by decide) tallied) fun appId after done => ?_)
    refine ends_imp (ends_newPALSApp sound careful.1 careful.2 done.1) ?_ fun _ gone => gone
    rintro app last ⟨rfl,kept,_⟩
    exact kept
  | flux site => exact ends_lax (ends_imp (ends_newFluxApp sound careful tallied) (fun _ _ done => done.2) fun _ gone => gone)
  | localhost site => exact ends_imp (ends_newLocalhostApp tallied) (fun _ _ done => done.2) fun _ kept => kept

end Making

section Unmaking
variable {hosts : Nat → Host} {key : Nat} {frontend : Frontend} {making : Option Nat} {held : Option Id} {app : Application}

theorem ends_there (tallied : Tallied making held frontend) :
    Ends (ask hosts (some key) (.there remote) type command) frontend (fun _ => Tallied making held) failed :=
  tally_there tallied

theorem ends_ifIssued (tallied : Tallied making held frontend)
    : Ends (ifIssued mpirId do let _ ← ask hosts (some key) (.there remote) type command) frontend
      (fun _ => Tallied making held) failed := by
  unfold ifIssued
  split
  · exact ends_drop (ends_there tallied)
  · exact tallied

theorem exhausted_destructApp : Keeps Exhausted [] (destructApp hosts key app palscmd) := by
  unfold destructApp
  cases app.kind with
  | SLURM | HPCMSLURM | GenericSSH | Flux => exact keeps_quietly exhausted_request
  | EproxySLURM =>
    refine keeps_bind (keeps_ifIssued (keeps_bind exhausted_ask fun _ => keeps_pure)) fun _ => ?_
    exact keeps_bind exhausted_stop fun _ => keeps_quietly exhausted_request
  | PALS => exact keeps_quietly (keeps_bind exhausted_request fun _ => keeps_pure)
  | ALPS | Localhost => exact keeps_pure

variable (sound : ∀ n, (hosts n).Sound)
include sound

theorem ends_destructApp (pals : app.kind ≠ .PALS) (alps : app.kind ≠ .ALPS) (tallied : Tallied making app.here frontend) :
    Ends (destructApp hosts key app palscmd) frontend (fun _ => Tallied making none) (Tallied making none) := by
  unfold destructApp
  have deregisters : ∀ after, Tallied making (some app.daemonAppId) after →
      Ends (quietly (request hosts (some key) (.deregisterApp app.daemonAppId))) after (fun _ => Tallied making none) (Tallied making none) :=
    fun after kept => ends_imp (ends_deregister sound kept) (fun _ _ done => done) fun _ wrong => wrong.elim
  unfold Application.here at tallied
  cases kind : app.kind with
  | SLURM | HPCMSLURM | GenericSSH | Flux =>
    rw [kind] at tallied
    exact deregisters frontend tallied
  | EproxySLURM =>
    rw [kind] at tallied
    refine ends_bind (ends_ifIssued tallied) fun _ after kept => ?_
    exact ends_bind (ends_drop (ends_there kept)) fun _ after kept => deregisters after kept
  | PALS => exact absurd kind pals
  | ALPS => exact absurd kind alps
  | Localhost =>
    rwa [kind] at tallied

theorem ends_releaseBarrier (ready : Ready making app frontend) (eproxy : app.kind ≠ .EproxySLURM) (alps : app.kind ≠ .ALPS)
    (flux : app.kind ≠ .Flux) (localhost : app.kind ≠ .Localhost) :
    Ends (releaseBarrier hosts key app none) frontend (fun _ => Tallied making app.here) fun after => ¬ after.Few := by
  have holds := ready.holds eproxy alps flux localhost
  unfold releaseBarrier
  cases kind : app.kind with
  | SLURM | HPCMSLURM | GenericSSH => exact ends_drop (ends_releaseMPIR sound ready.tallied holds)
  | PALS =>
    rw [if_pos (ready.barrier kind)]
    exact ends_bind (ends_releaseMPIR sound ready.tallied holds) fun _ after kept => tally_revise kept fun _ => rfl
  | EproxySLURM => exact absurd kind eproxy
  | ALPS => exact absurd kind alps
  | Flux => exact absurd kind flux
  | Localhost => exact absurd kind localhost

theorem ends_launch (careful : launching.Careful hosts frontend) {palscmd : Launch} (tallied : Tallied (some key) none frontend) :
    Ends (launch hosts key launching palscmd) frontend (fun _ => Tallied none none) (Tallied none none) := by
  have made : Ends (launching.application hosts key) frontend (Ready (some key)) (Tallied none none) :=
    ends_imp (ends_launching sound careful tallied) (fun _ _ ready => ready) fun _ kept => tally_unmade kept
  refine ends_bind made fun app after ready => ?_
  have released (eproxy : app.kind ≠ .EproxySLURM) (alps : app.kind ≠ .ALPS) (flux : app.kind ≠ .Flux) (localhost : app.kind ≠ .Localhost) :
      Ends (do
        unwinding (destructApp hosts key app palscmd) (releaseBarrier hosts key app none)
        modify (·.withApp key app.pastBarrier)) after (fun _ => Tallied none none) (Tallied none none) := by
    refine ends_bind (ends_lax (ends_unwinding (ends_releaseBarrier sound ready eproxy alps flux localhost) fun after gone => ?_))
      fun _ after kept => ?_
    · exact exhausted_destructApp after gone
    · have same : app.pastBarrier.here = app.here := rfl
      exact tally_withApp (same ▸ kept)
  cases kind : app.kind with
  | EproxySLURM =>
    have barrier : Ends (releaseBarrier hosts key app none) after (fun _ => Tallied (some key) app.here) (Tallied none none) := by
      unfold releaseBarrier
      rw [kind]
      exact ends_ifIssued ready.tallied
    refine ends_bind barrier fun _ after kept => ?_
    exact ends_imp (ends_destructApp sound (by simp [kind]) (by simp [kind]) kept) (fun _ _ gone => tally_unmade gone)
      fun _ gone => tally_unmade gone
  | SLURM | HPCMSLURM | GenericSSH | PALS => exact released (by simp [kind]) (by simp [kind]) (by simp [kind]) (by simp [kind])
  | ALPS | Flux | Localhost => exact tally_withApp ready.tallied

end Unmaking

-- SLURM starts daemons with a launcher of its own, and the daemon registers it.
def Operation.registers (kind : FrontendClass) : Operation → Bool
  | .startDaemon _ => kind.slurm
  | _ => false

section Calls
variable {hosts : Nat → Host} {key : Nat} {frontend : Frontend} {app : Application}

theorem ends_newObject (tallied : Tallied none none frontend)
    (rest : ∀ after, after.registry = frontend.registry → Tallied (some frontend.made) none after → Ends (more frontend.made) after done failed) :
    Ends (newObject >>= more) frontend done failed :=
  rest _ rfl (tally_begin tallied)

theorem ends_trackApp (tallied : Tallied none none frontend) :
    Ends (trackApp key) frontend (fun _ => Tallied none none) (Tallied none none) :=
  ends_onHandles (fun _ => tally_same tallied rfl rfl rfl)

theorem ends_tracked (tallied : Tallied (some key) app.here frontend) :
    Ends (do modify (·.withApp key app); trackApp key) frontend (fun _ => Tallied none none) (Tallied none none) :=
  ends_trackApp (tally_withApp tallied)

theorem Launching.careful_same {launching : Launching} (careful : launching.Careful hosts frontend) {after : Frontend}
    (same : after.registry = frontend.registry) : launching.Careful hosts after := by
  cases launching with
  | alps aprunPid wrapper site => exact ⟨same ▸ careful.1,careful.2⟩
  | _ => exact careful

theorem Registering.careful_same {registering : Registering} (careful : registering.Careful hosts frontend) {after : Frontend}
    (same : after.registry = frontend.registry) : registering.Careful hosts after := by
  cases registering with
  | alps aprunPid site => exact ⟨same ▸ careful.1,careful.2⟩
  | sshRemote launcherName launcherPid ours site => exact fun free => careful (same ▸ free)
  | _ => exact careful

variable (sound : ∀ n, (hosts n).Sound)
include sound

theorem ends_launchApp (careful : launching.Careful hosts frontend) (tallied : Tallied none none frontend) :
    Ends (launchApp hosts launching palscmd) frontend (fun _ => Tallied none none) (Tallied none none) := by
  refine ends_newObject tallied fun after same begun => ?_
  exact ends_bind (ends_launch sound (Launching.careful_same careful same) begun) fun _ after kept => ends_trackApp kept

theorem ends_launchAppBarrier (careful : launching.Careful hosts frontend) (tallied : Tallied none none frontend) :
    Ends (launchAppBarrier hosts launching) frontend (fun _ => Tallied none none) (Tallied none none) := by
  refine ends_newObject tallied fun after same begun => ?_
  have made : Ends (launching.application hosts frontend.made) after (Ready (some frontend.made)) (Tallied (some frontend.made) none) :=
    ends_launching sound (Launching.careful_same careful same) begun
  exact ends_bind (ends_imp made (fun _ _ ready => ready) fun _ kept => tally_unmade kept) fun app after ready => ends_tracked ready.tallied

theorem ends_registerApp (careful : registering.Careful hosts frontend) (tallied : Tallied none none frontend) :
    Ends (registerApp hosts registering) frontend (fun _ => Tallied none none) (Tallied none none) := by
  refine ends_newObject tallied fun after same begun => ?_
  have made : Ends (registering.application hosts frontend.made) after (fun app => Tallied (some frontend.made) app.here)
      (Tallied (some frontend.made) none) := ends_registered sound (Registering.careful_same careful same) begun
  exact ends_bind (ends_imp made (fun _ _ ready => ready) fun _ kept => tally_unmade kept) fun app after ready => ends_tracked ready

theorem keeps_operation {operation : Operation} (plain : operation.registers kind = false) :
    Keeps (Tallying none none (KindAt key kind)) [] (operation.perform hosts key) := by
  intro frontend tallied
  cases found : frontend.apps.find key with
  | none =>
    rw [GainsFrom,Ends,Operation.perform,bind_stopped (object_missing found)]
    exact tallied
  | some app =>
    rw [GainsFrom,Ends,Operation.perform,bind_after (object_found found)]
    have lenient : Lenient hosts key (Tallying none none (KindAt key kind)) [] app.ids := tally_lenient sound kindAt_steady app.ids
    have mine : app.ids ⊆ app.ids := List.Subset.refl _
    cases operation with
    | shipPackage package => exact keeps_shipPackage lenient mine frontend tallied
    | startDaemon start =>
      have other : app.kind.slurm = false := by rw [tallied.2 app found]; exact plain
      exact keeps_startDaemon_plain lenient mine other frontend tallied
    | checkFilesExist start => exact keeps_checkFilesExist lenient mine frontend tallied
    | kill utility checkScancelOutput sent => exact keeps_kill lenient mine frontend tallied
    | releaseBarrier done => exact keeps_releaseBarrier lenient mine frontend tallied

theorem ends_removeApp (kinds : KindAt key kind frontend) (pals : kind ≠ .PALS) (alps : kind ≠ .ALPS)
    {cleanups : List Operation} (plain : ∀ operation ∈ cleanups, operation.registers kind = false) (tallied : Tallied none none frontend) :
    Ends (removeApp hosts appId key cleanups palscmd) frontend (fun _ => Tallied none none) (Tallied none none) := by
  have cleaned : Keeps (Tallying none none (KindAt key kind)) [] (quietly (cleanups.forM (Operation.perform hosts key))) :=
    keeps_quietly (keeps_forM fun operation inside => keeps_operation sound (plain operation inside))
  refine ends_bind (ends_imp (keeps_ends cleaned tallied kinds) (fun _ _ both => both) fun _ both => both.1) fun _ after both => ?_
  cases left : after.apps.find key with
  | none =>
    rw [Ends,bind_stopped (object_missing left)]
    exact both.1
  | some app =>
    have same := both.2 app left
    rw [Ends,bind_after (object_found left)]
    have gone : Tallied none app.here ((after.withoutApp key).forgetApp appId) := tally_same (tally_withoutApp both.1 left) rfl rfl rfl
    exact ends_destructApp sound (same ▸ pals) (same ▸ alps) gone

end Calls

def Frontend.Removable (frontend : Frontend) (appId : Handle) (cleanups : List Operation) : Prop :=
  ∀ key app, frontend.owner appId = some key → frontend.apps.find key = some app →
    app.kind ≠ .PALS ∧ app.kind ≠ .ALPS ∧ ∀ operation ∈ cleanups, operation.registers app.kind = false

def Frontend.Workable (frontend : Frontend) (owner : Option Nat) (operation : Operation) : Prop :=
  ∀ key app, owner = some key → frontend.apps.find key = some app → operation.registers app.kind = false

def Call.concerns : Call → Bool
  | .getSrunInfo _ _ | .getApid _ _ | .releaseApp _ | .destroy _ _ => false
  | _ => true

def Call.Careful (hosts : Nat → Host) (frontend : Frontend) : Call → Prop
  | .launchApp launching _ => launching.Careful hosts frontend
  | .launchAppBarrier launching => launching.Careful hosts frontend
  | .registerApp registering => registering.Careful hosts frontend
  | .appIsValid appId _ cleanups _ => frontend.Removable appId cleanups
  | .deregisterApp appId cleanups _ => frontend.Removable appId cleanups
  | .useApp appId operation => frontend.Workable (frontend.owner appId) operation
  | .useSession key operation => frontend.Workable (some key) operation
  | _ => True

-- What is registered is what the objects have, each its own, and nothing else has utilities.
structure Frontend.Leakless (frontend : Frontend) : Prop where
  registered : ∀ id, frontend.registry.Registered id ↔ frontend.Owns id
  single : ∀ key other app object id, frontend.apps.find key = some app → frontend.apps.find other = some object → id ∈ app.here →
    id ∈ object.here → key = other
  utils : ∀ id, (frontend.registry.utilMap.find id).isSome = true → frontend.Owns id

section Runs
variable {hosts : Nat → Host} {frontend : Frontend} {key : Nat}

theorem getApp_unowned (unowned : frontend.owner appId = none) :
    ∃ failure, getApp appId frontend = .error failure {frontend with handles := frontend.handles.erased appId} := by
  obtain ⟨message,missing⟩ := Handles.getHandle_unheld unowned
  refine ⟨.text message,?_⟩
  simp only [getApp,onHandles,missing]

theorem ends_getApp (tallied : Tallied none none frontend)
    (rest : ∀ key app, frontend.owner appId = some key → frontend.apps.find key = some app →
      Ends (more key) frontend (fun _ => Tallied none none) (Tallied none none)) :
    Ends (getApp appId >>= more) frontend (fun _ => Tallied none none) (Tallied none none) := by
  cases owned : frontend.owner appId with
  | none =>
    obtain ⟨failure,failed⟩ := getApp_unowned owned
    rw [Ends,bind_stopped failed]
    exact tally_same tallied rfl rfl rfl
  | some key =>
    obtain ⟨app,found⟩ := owner_object owned
    rw [Ends,bind_after (getApp_owned owned)]
    exact rest key app owned found

variable (sound : ∀ n, (hosts n).Sound)
include sound

theorem ends_deregisterApp (removable : frontend.Removable appId cleanups) (tallied : Tallied none none frontend) :
    Ends (deregisterApp hosts appId cleanups palscmd) frontend (fun _ => Tallied none none) (Tallied none none) := by
  refine ends_getApp tallied fun key app owned found => ?_
  obtain ⟨pals,alps,plain⟩ := removable key app owned found
  exact ends_removeApp sound (kindAt_found found) pals alps plain tallied

theorem ends_appIsValid (removable : frontend.Removable appId cleanups) (tallied : Tallied none none frontend) :
    Ends (appIsValid hosts appId reported cleanups palscmd) frontend (fun _ => Tallied none none) (Tallied none none) := by
  cases owned : frontend.owner appId with
  | none =>
    rw [Ends,appIsValid,bind_after (validApp_unowned owned)]
    exact tally_same tallied rfl rfl rfl
  | some key =>
    rw [Ends,appIsValid,bind_after (validApp_owned owned)]
    refine ends_getApp tallied fun key app owned found => ?_
    obtain ⟨pals,alps,plain⟩ := removable key app owned found
    rw [Ends,bind_after (object_found found)]
    have ids : app.ids ⊆ (.there app.remoteDaemon,app.daemonAppId) :: app.ids := subset_cons_self _ _
    have asked : Keeps (Tallying none none (KindAt key app.kind)) [] (isRunning hosts key app reported) :=
      keeps_isRunning (tally_lenient sound kindAt_steady _) ids fun _ => mem_cons_self
    refine ends_bind (ends_imp (keeps_ends asked tallied (kindAt_found found)) (fun _ _ both => both) fun _ both => both.1)
      fun running after both => ?_
    cases running with
    | true => exact both.1
    | false => exact ends_bind (ends_removeApp sound both.2 pals alps plain both.1) fun _ _ kept => kept

theorem ends_useApp {operation : Operation} (workable : frontend.Workable owner operation) (mine : owner = some key)
    (tallied : Tallied none none frontend) :
    Ends (operation.perform hosts key) frontend (fun _ => Tallied none none) (Tallied none none) := by
  cases found : frontend.apps.find key with
  | none =>
    rw [Ends,Operation.perform,bind_stopped (object_missing found)]
    exact tallied
  | some app =>
    have kept := keeps_ends (keeps_operation sound (workable key app mine found)) tallied (kindAt_found found)
    exact ends_imp kept (fun _ _ both => both.1) fun _ both => both.1

theorem ends_perform {call : Call} (concerns : call.concerns = true) (careful : call.Careful hosts frontend)
    (tallied : Tallied none none frontend) : Ends (call.perform hosts) frontend (fun _ => Tallied none none) (Tallied none none) := by
  cases call with
  | launchApp launching palscmd => exact ends_drop (ends_launchApp sound careful tallied)
  | launchAppBarrier launching => exact ends_drop (ends_launchAppBarrier sound careful tallied)
  | registerApp registering => exact ends_drop (ends_registerApp sound careful tallied)
  | appIsValid appId reported cleanups palscmd => exact ends_drop (ends_appIsValid sound careful tallied)
  | deregisterApp appId cleanups palscmd => exact ends_deregisterApp sound careful tallied
  | useApp appId operation => exact ends_getApp tallied fun key app owned found => ends_useApp sound careful owned tallied
  | useSession key operation => exact ends_useApp sound careful rfl tallied
  | child endpoint code pid =>
    refine tally_advance tallied (.child code pid) (fun _ => trivial) (fun daemon => ?_) endpoint
    obtain ⟨more,handled⟩ := handler_effect
    rw [Daemon.next,handled]
  | removed endpoint appId =>
    refine tally_advance tallied (.removed appId) (fun _ => trivial) (fun daemon => ?_) endpoint
    rw [Daemon.next,Daemon.remove]
    split <;> rfl
  | _ => cases concerns

omit sound in
theorem tally_start : Tallied none none Frontend.start := by
  intro few
  refine ⟨numbered_start,consistent_start,fun id => ?_,fun _ wrong => ?_,fun _ _ _ _ _ wrong => ?_,fun _ wrong => ?_,fun _ wrong => ?_⟩
  · refine ⟨nofun,?_⟩
    rintro (⟨_,_,wrong,_⟩ | wrong) <;> cases wrong
  · cases wrong
  · cases wrong
  · cases wrong
  · cases wrong

theorem no_registration_leak {calls : List Call}
    (path : Reached (fun frontend call => call.concerns = true ∧ call.Careful hosts frontend) (Frontend.next hosts) Frontend.start calls frontend)
    (few : frontend.Few) : frontend.Leakless := by
  have tallied : Tallied none none frontend :=
    reached_invariant tally_start (fun _ _ tallied admitted =>
      Frontend.next_keeps tallied (ends_after (ends_perform sound admitted.1 admitted.2 tallied))) path
  have tally := tallied few
  have registered : ∀ id, frontend.registry.Registered id ↔ frontend.Owns id := fun id => (tally.registered id).trans (by simp)
  exact ⟨registered,tally.single,fun id filed => (registered id).mp (tally.tables.utils id filed)⟩

end Runs

theorem busyHosts_obliging (n : Nat) : (busyHosts n).Obliging := by
  refine ⟨fun instance' => ⟨_,rfl,by simp,fun elem inside => ?_⟩,fun _ _ => ⟨numberText,_,rfl,rfl⟩⟩
  cases mem_singleton.mp inside
  exact Int.le_of_lt busyPid_positive

def overlapping : List Call := [job,.registerApp (.slurm false srun [] plainSite),.deregisterApp 1 [] srun]

theorem no_registration_leak_overlapping : (overlapping.foldl (Frontend.next busyHosts) Frontend.start).Leakless ∧
      (overlapping.foldl (Frontend.next busyHosts) Frontend.start).registry.idPidMap.entries.map Prod.fst = [2] := by
  refine ⟨no_registration_leak busyHosts_sound (reached_run ⟨⟨rfl,busyHosts_obliging,rfl,rfl⟩,⟨rfl,busyHosts_obliging,⟨rfl,rfl⟩,rfl,rfl⟩,
    ⟨rfl,fun key app owned found => ?_⟩,trivial⟩) (by unfold Frontend.Few; decide),by decide⟩
  have kinds : ∀ row ∈ ((overlapping.take 2).foldl (Frontend.next busyHosts) Frontend.start).apps.entries,
      row.2.kind ≠ .PALS ∧ row.2.kind ≠ .ALPS := by decide
  obtain ⟨pals,alps⟩ := kinds (key,app) ((OrderedMap.find_mem (key,app) _).mp found)
  exact ⟨pals,alps,fun _ wrong => by cases wrong⟩

theorem leaked_id {frontend : Frontend} (id : Id) (known : (frontend.registry.idPidMap.find id).isSome = true)
    (unowned : ∀ row ∈ frontend.apps.entries, id ∉ row.2.here) : ¬ frontend.Leakless := by
  intro leakless
  obtain ⟨key,app,found,mine⟩ := (leakless.registered id).mp known
  exact unowned (key,app) ((OrderedMap.find_mem (key,app) _).mp found) mine

def helpfulHosts (n : Nat) : Host := {busyHosts n with fork := .ok ⟨70,by decide⟩,waitpid := fun _ => .ok (some 0)}

def aprun : Process := ⟨40,by decide⟩

-- ALPSApp and PALSApp go without a word to the daemon.
def aprunGone : List Call := [.registerApp (.alps aprun plainSite),.deregisterApp 1 [] srun]

def palsGone : List Call := [.registerApp (.pals ⟨srun,"PALS: failed to make the tool directory"⟩ plainSite),.deregisterApp 1 [] srun]

-- What a constructor throws after it has its id.
def fluxFailed : List Call := [.launchAppBarrier (.flux none ⟨none,none,some (.text "flux: attach failed")⟩)]

-- The second component of a job is let go of, but stays registered.
def heterogeneous : List Call := [.registerApp (.slurm false srun [srun] plainSite)]

theorem registrations_leak : ¬ (aprunGone.foldl (Frontend.next busyHosts) Frontend.start).Leakless ∧
      ¬ (palsGone.foldl (Frontend.next helpfulHosts) Frontend.start).Leakless ∧
      ¬ (fluxFailed.foldl (Frontend.next busyHosts) Frontend.start).Leakless ∧
      ¬ (heterogeneous.foldl (Frontend.next busyHosts) Frontend.start).Leakless :=
  ⟨leaked_id 1 (by decide) (by decide),leaked_id 1 (by decide) (by decide),leaked_id 1 (by decide) (by decide),leaked_id 2 (by decide) (by decide)⟩

end CommonTools.Applications
