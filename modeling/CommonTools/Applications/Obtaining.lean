import CommonTools.Applications.Enrolment

namespace CommonTools.FeDaemon
open OrderedMaps Programs

structure Host.Runs (host : Host) (data : LaunchData) : Prop where
  found : (host.findPath data.filepath).isSome = true
  entries : ∀ entry ∈ data.envList, 61 ∈ entry
  finishes : ∃ pid, host.fork = .ok pid ∧ host.waitpid pid.1 = .ok (some 0)

section Working
variable {host : Host} {registry : Registry} {appId : Id}

theorem registerUtilPID_known (known : registry.Registered appId) (positive : 0 < utilPid.toInt) :
    ∃ registry', registerUtilPID appId utilPid signum registry = .ok () registry' := by
  obtain ⟨appPid,found⟩ := Option.isSome_iff_exists.mp known
  rw [registerUtilPID,get_after,found]
  simp only [if_pos positive]
  exact ⟨_,rfl⟩

theorem utility_runs (runs : host.Runs data) (known : registry.Registered appId) :
    ∃ registry', operate host .ForkExecvpUtil (.forkExecvpUtil appId RunMode.synchronous.code data) registry = .ok true registry' := by
  obtain ⟨pid,forked,waited⟩ := runs.finishes
  have started : forkExec host data registry = .ok pid.1 registry := (forkExec_ok host).mpr ⟨runs.found,runs.entries,⟨pid,forked,rfl⟩,rfl⟩
  obtain ⟨registry',filed⟩ := registerUtilPID_known known pid.2
  refine ⟨registry',?_⟩
  change forkExecvpUtil host appId RunMode.synchronous.code data registry = _
  rw [forkExecvpUtil,bind_after started,bind_after filed,waited]
  rfl

theorem util_registers (known : registry.Registered appId) (positive : 0 < utilPid.toInt) :
    (∃ registry', operate host .RegisterUtil (.registerUtil appId utilPid) registry = .ok true registry') ∧
      ∃ registry', operate host .RegisterUtilWithSigkill (.registerUtilWithSigkill appId utilPid) registry = .ok true registry' := by
  obtain ⟨one,filed⟩ := registerUtilPID_known known positive
  obtain ⟨other,filed'⟩ := registerUtilPID_known known positive
  exact ⟨⟨one,bind_after filed⟩,⟨other,bind_after filed'⟩⟩

theorem session_releases (held : (registry.mpirMap.find mpirId).isSome = true) :
    ∃ registry', operate host .ReleaseMPIR (.releaseMPIR mpirId) registry = .ok true registry' := by
  obtain ⟨instance',found⟩ := Option.isSome_iff_exists.mp held
  have released : releaseMPIR mpirId registry = .ok () (registry.eraseMPIR mpirId) := by
    rw [releaseMPIR,get_after,found]
    rfl
  exact ⟨_,bind_after released⟩

theorem session_reads (obliging : host.Obliging) (held : (registry.mpirMap.find mpirId).isSome = true) :
    ∃ text value, operate host .ReadStringMPIR (.readStringMPIR mpirId name) registry = .ok text registry ∧
      Numerals.stoi text.1 = .ok value := by
  obtain ⟨instance',found⟩ := Option.isSome_iff_exists.mp held
  obtain ⟨text,value,read,number⟩ := obliging.texts instance' name
  refine ⟨text,value,?_,number⟩
  change readStringMPIR host mpirId name registry = _
  rw [readStringMPIR,get_after,found]
  exact attempt_ok.mpr ⟨read,rfl⟩

theorem utility_sessions :
    ((Command.effect host registry (.forkExecvpUtil appId runMode data)).apply registry).mpirMap = registry.mpirMap := by
  let P : Effect → Prop := fun effect => (effect.apply registry).mpirMap = registry.mpirMap
  have idle : P .idle := rfl
  have tracks : ∀ utilPid, P (registry.tracking appId utilPid SIGTERM) := fun _ => tracking_elim idle fun _ _ => rfl
  exact found_elim idle fun utilPid _ => tracks utilPid

end Working

end CommonTools.FeDaemon

namespace CommonTools.Applications
open FeDaemon Numerals OrderedMaps Programs Credentials
open Interface (Handle Handles FrontendClass)

def answered : EStateM.Result Bytes Registry α → Except CStr α
  | .ok answer _ => .ok answer
  | .error what _ => .error (cstr what)

def seeking (hosts : Nat → Host) (app : Option Nat) (wanted : MPIRRequest) : Work MPIRRead := fun frontend =>
  let host := hosts frontend.sent.length
  (raised (seenMPIR (answered (wanted.perform host frontend.registry))) >>= fun value => pure value.result)
    (frontend.served host app .here wanted.command)

section Seeking
variable {hosts : Nat → Host} {key : Nat} {frontend : Frontend} {making : Option Nat}

theorem operations_answered (type : ReqType) : operations host registry type command = answered (operate host type command registry) := by
  unfold operations
  cases operate host type command registry <;> rfl

theorem result_seeks (same : ∀ frontend, asked frontend = .ok (answered (wanted.perform (hosts frontend.sent.length) frontend.registry))
      (frontend.served (hosts frontend.sent.length) (some key) .here wanted.command)) :
    (asked >>= fun outcome => raised (seenMPIR outcome) >>= fun value => pure value.result) = seeking hosts (some key) wanted := by
  funext frontend
  exact bind_after (same frontend)

theorem launching_seeks {launch : Launch} : requestLaunchMPIR hosts (some key) launch = seeking hosts (some key) (.launchMPIR launch.meant) := by
  unfold requestLaunchMPIR request
  rw [bind_assoc]
  exact result_seeks fun frontend => congrArg (EStateM.Result.ok · _) (operations_answered .LaunchMPIR)

theorem attaching_seeks :
    requestAttachMPIR hosts (some key) launcherPath launcherPid = seeking hosts (some key) (.attachMPIR launcherPath.1 launcherPid) := by
  unfold requestAttachMPIR request
  rw [bind_assoc]
  exact result_seeks fun frontend => congrArg (EStateM.Result.ok · _) (operations_answered .AttachMPIR)

theorem launchUnder_seeks {hosts : Nat → Host} {launch : Launch} :
    ∃ wanted, launchUnder hosts key shim launch = seeking hosts (some key) wanted := by
  cases shim with
  | none => exact ⟨_,launching_seeks⟩
  | some paths =>
    refine ⟨.launchMPIRShim ⟨paths.1.1,paths.2.1.1,paths.2.2.1⟩ launch.meant,?_⟩
    unfold launchUnder request
    dsimp only
    rw [bind_assoc]
    exact result_seeks fun frontend => congrArg (EStateM.Result.ok · _) (operations_answered .LaunchMPIRShim)

def Frontend.Holds (frontend : Frontend) (mpirId : Id) : Prop := frontend.Few → (frontend.registry.mpirMap.find mpirId).isSome = true

structure Launched (making : Option Nat) (result : MPIRRead) (frontend : Frontend) : Prop where
  tallied : Tallied making (some result.mpirId) frontend
  holds : frontend.Holds result.mpirId
  named : result.mpirId ≠ 0
  some : result.proctable ≠ []
  pids : ∀ elem ∈ result.proctable, 0 ≤ elem.pid.toInt

theorem ends_seeking (sound : ∀ n, (hosts n).Sound) (obliging : ∀ n, (hosts n).Obliging) (tallied : Tallied making none frontend) :
    Ends (seeking hosts (some key) wanted) frontend (Launched making) (Tallied making none) := by
  let host := hosts frontend.sent.length
  let served := frontend.served host (some key) .here wanted.command
  have other : ∀ appPid, wanted.command = .registerApp appPid → 0 ≤ appPid.toInt := by
    intro appPid wrong
    cases wanted <;> cases wrong
  have registry' : served.registry = after (wanted.perform host frontend.registry) := by
    change (served.daemons .here).registry = _
    rw [served_here,perform_serve]
    rfl
  change Ends (raised (seenMPIR (answered (wanted.perform host frontend.registry))) >>= fun value => pure value.result) served _ _
  cases ended : wanted.perform host frontend.registry with
  | error message registry =>
    refine fun few' => ?_
    have few := few_served .here few'
    have tally := tallied few
    obtain ⟨numbered,tables⟩ := tables_served tally.numbered tally.tables few (sound _) other
    refine tally_frame tally numbered tables (fun id => ?_) rfl rfl
    exact unlaunched_registered (obliging _) ended
  | ok result registry =>
    obtain ⟨next,_⟩ := perform_numbered host wanted ended
    have tallied' : Tallied making (some result.mpirId) served := by
      refine tally_acquired tallied (sound _) other next fun id => ?_
      exact launched_registered ended
    obtain ⟨⟨instance',table⟩,held⟩ := perform_table ended
    obtain ⟨proctable,read,nonempty,pids⟩ := (obliging _).table instance'
    cases table.symm.trans read
    by_cases zero : result.mpirId = 0
    · simp only [answered,seenMPIR,if_pos zero]
      refine fun few => ?_
      have positive := tally_positive (tallied' few) few
      rw [zero] at positive
      cases positive
    · simp only [answered,seenMPIR,if_neg zero]
      refine ⟨tallied',?_,zero,by simpa [Returned.result] using nonempty,?_⟩
      · intro _
        rw [registry',ended]
        exact held
      · intro elem inside
        obtain ⟨before,there,rfl⟩ := List.mem_map.mp inside
        exact pids before there

end Seeking

section Working
variable {hosts : Nat → Host} {key : Nat} {frontend : Frontend} {making : Option Nat} {held : Option Id}

theorem ends_unwinding
    (ends : Ends act frontend done failed) (cleans : ∀ after, failed after → Ends clean after (fun _ => failed') failed') :
    Ends (unwinding clean act) frontend done failed' :=
  ends_catch ends fun _ after wrong => ends_bind (cleans after wrong) fun _ _ cleaned => cleaned

theorem ends_drop (ends : Ends act frontend (fun _ => P) failed) :
    Ends (do let _ ← act) frontend (fun _ => P) failed :=
  ends_bind ends fun _ _ kept => kept

theorem ends_lax (ends : Ends act frontend done fun after => ¬ after.Few) : Ends act frontend done (Tallied making held) :=
  ends_imp ends (fun _ _ done => done) fun _ gone few => absurd few gone

theorem ends_clear
    (clear : outcome = none) (rest : Ends (next ()) frontend done failed) : Ends (trouble outcome >>= next) frontend done failed := by
  subst clear
  exact rest

theorem ends_served (hosts : Nat → Host) (app : Option Nat) (frontend : Frontend) (wanted : Request) : Ends (request hosts app wanted) frontend
    (fun _ after => after = frontend.served (hosts frontend.sent.length) app .here wanted.meant)
    (fun after => after = frontend.served (hosts frontend.sent.length) app .here wanted.meant) := by
  refine ends_of (fun value after done => ?_) fun failure after failed => ?_
  · obtain ⟨outcome,middle,asked,read⟩ := bind_ok.mp done
    cases asked
    cases seen : wanted.seen _ with
    | ok given => rw [seen] at read; cases read; rfl
    | error wrong => rw [seen] at read; cases read
  · rcases bind_error.mp failed with wrong | ⟨outcome,middle,asked,read⟩
    · cases wrong
    · cases asked
      cases seen : wanted.seen _ with
      | ok given => rw [seen] at read; cases read
      | error wrong => rw [seen] at read; cases read; rfl

variable (sound : ∀ n, (hosts n).Sound)
include sound

theorem ends_quiet {wanted : Request} {P : Returned → Prop} (tallied : Tallied making held frontend) (quiet : wanted.meant.quiet = true)
    (works : frontend.Few → ∃ answer value,
      (operations (hosts frontend.sent.length) frontend.registry).run wanted.type wanted.meant = .ok answer ∧
      wanted.seen (.ok answer) = .ok value ∧ P value) : Ends (request hosts (some key) wanted) frontend
      (fun value after => Tallied making held after ∧ (after.Few → P value) ∧
        after = frontend.served (hosts frontend.sent.length) (some key) .here wanted.meant) fun after => ¬ after.Few := by
  have outcome : ∀ {answer value}, (operations (hosts frontend.sent.length) frontend.registry).run wanted.type wanted.meant = .ok answer →
      wanted.seen (.ok answer) = .ok value → request hosts (some key) wanted frontend =
        .ok value (frontend.served (hosts frontend.sent.length) (some key) .here wanted.meant) := by
    intro answer value run seen
    have asked : ask hosts (some key) .here wanted.type wanted.meant frontend =
        .ok (.ok answer) (frontend.served (hosts frontend.sent.length) (some key) .here wanted.meant) :=
      congrArg (EStateM.Result.ok · _) run
    rw [request,bind_after asked,seen]
    rfl
  have ends := ends_served hosts (some key) frontend wanted
  refine ends_of (fun value after done => ?_) fun failure after failed => ?_
  · have same := ends_ok ends done
    refine ⟨same ▸ tally_quiet tallied (sound _) quiet .here,fun few => ?_,same⟩
    obtain ⟨answer,given,run,seen,fine⟩ := works (few_served .here (same ▸ few))
    rw [outcome run seen] at done
    cases done
    exact fine
  · intro few
    have same := ends_error ends failed
    obtain ⟨answer,given,run,seen,fine⟩ := works (few_served .here (same ▸ few))
    rw [outcome run seen] at failed
    cases failed

omit sound in
theorem holds_served (holds : frontend.Holds mpirId)
    (same : ((command.effect (hosts frontend.sent.length) frontend.registry).apply frontend.registry).mpirMap = frontend.registry.mpirMap) :
    (frontend.served (hosts frontend.sent.length) (some key) .here command).Holds mpirId := by
  intro few
  obtain ⟨launching,served⟩ := serve_effect (hosts frontend.sent.length) command (frontend.daemons .here)
  rw [Frontend.registry,served_here,served]
  exact same.symm ▸ holds (few_served .here few)

theorem ends_readString (obliging : ∀ n, (hosts n).Obliging) (tallied : Tallied making held frontend) (holds : frontend.Holds mpirId) :
    Ends (requestReadStringMPIR hosts (some key) mpirId name) frontend
      (fun text after => (after.Few → ∃ number, stoi text = .ok number) ∧ Tallied making held after ∧ after.Holds mpirId)
      fun after => ¬ after.Few := by
  refine ends_bind (ends_quiet (P := fun value => ∃ number, stoi value.string = .ok number) sound tallied rfl fun few => ?_)
    fun value after done => ?_
  · obtain ⟨text,number,given,parses⟩ := session_reads (obliging frontend.sent.length) (holds few)
    refine ⟨text,.text text.1,?_,rfl,number,parses⟩
    exact (operations_answered .ReadStringMPIR).trans (by rw [Request.meant,given]; rfl)
  · obtain ⟨kept,fine,rfl⟩ := done
    exact ⟨fine,kept,holds_served holds rfl⟩

theorem ends_readNumber (obliging : ∀ n, (hosts n).Obliging) (tallied : Tallied making held frontend) (holds : frontend.Holds mpirId) :
    Ends (readNumber hosts key mpirId [] name what) frontend (fun _ after => Tallied making held after ∧ after.Holds mpirId)
      fun after => ¬ after.Few := by
  refine ends_bind (ends_readString sound obliging tallied holds) fun text after done => ?_
  obtain ⟨parses,kept⟩ := done
  unfold parsed
  cases number : stoi text with
  | ok value => exact kept
  | error wrong =>
    intro few
    obtain ⟨value,fine⟩ := parses few
    rw [number] at fine
    cases fine

theorem ends_runUtility {utility : Utility} (runs : ∀ n, (hosts n).Runs utility.launch.meant)
    (tallied : Tallied making (some appId) frontend) : Ends (runUtility hosts key appId utility) frontend
      (fun _ after => Tallied making (some appId) after ∧ ∀ mpirId, frontend.Holds mpirId → after.Holds mpirId) fun after => ¬ after.Few := by
  have ran : Ends (forkExecvpUtilSync hosts (some key) appId utility.launch) frontend
      (fun success after => (after.Few → success = true) ∧ Tallied making (some appId) after ∧
        ∀ mpirId, frontend.Holds mpirId → after.Holds mpirId) fun after => ¬ after.Few := by
    refine ends_bind (ends_quiet (P := fun value => value.flagged = true) sound tallied rfl fun few => ?_) fun value after done => ?_
    · have known := ((tallied few).registered appId).mpr (.inr rfl)
      obtain ⟨registry',done⟩ := utility_runs (runs frontend.sent.length) known
      refine ⟨true,.flag true,?_,rfl,rfl⟩
      exact (operations_answered .ForkExecvpUtil).trans (by rw [Request.meant,done]; rfl)
    · obtain ⟨kept,fine,rfl⟩ := done
      exact ⟨fine,kept,fun mpirId holds => holds_served holds utility_sessions⟩
  refine ends_bind ran fun success after done => ?_
  obtain ⟨fine,kept⟩ := done
  cases success with
  | true => exact kept
  | false => exact fun few => by cases fine few

theorem ends_registerUtils {pid : Process} (tallied : Tallied making (some appId) frontend) :
    Ends (request hosts (some key) (.registerUtil appId pid.1)) frontend (fun _ => Tallied making (some appId)) (fun after => ¬ after.Few) ∧
      Ends (request hosts (some key) (.registerUtilWithSigkill appId pid.1)) frontend (fun _ => Tallied making (some appId))
        fun after => ¬ after.Few := by
  have known : frontend.Few → frontend.registry.Registered appId := fun few => ((tallied few).registered appId).mpr (.inr rfl)
  constructor
  · refine ends_imp (ends_quiet (P := fun _ => True) sound tallied rfl fun few => ?_) (fun _ _ done => done.1) fun _ gone => gone
    obtain ⟨registry',done⟩ := (util_registers (known few) pid.2).1
    exact ⟨true,.done,(operations_answered .RegisterUtil).trans (by rw [Request.meant,done]; rfl),rfl,trivial⟩
  · refine ends_imp (ends_quiet (P := fun _ => True) sound tallied rfl fun few => ?_) (fun _ _ done => done.1) fun _ gone => gone
    obtain ⟨registry',done⟩ := (util_registers (known few) pid.2).2
    exact ⟨true,.done,(operations_answered .RegisterUtilWithSigkill).trans (by rw [Request.meant,done]; rfl),rfl,trivial⟩

theorem ends_releaseMPIR (tallied : Tallied making held frontend) (holds : frontend.Holds mpirId) :
    Ends (request hosts (some key) (.releaseMPIR mpirId)) frontend (fun _ => Tallied making held) fun after => ¬ after.Few := by
  refine ends_imp (ends_quiet (P := fun _ => True) sound tallied rfl fun few => ?_) (fun _ _ done => done.1) fun _ gone => gone
  obtain ⟨registry',done⟩ := session_releases (holds few)
  exact ⟨true,.done,(operations_answered .ReleaseMPIR).trans (by rw [Request.meant,done]; rfl),rfl,trivial⟩

theorem ends_deregister {id : Id} (tallied : Tallied making (some id) frontend) :
    Ends (quietly (request hosts (some key) (.deregisterApp id))) frontend (fun _ => Tallied making none) fun _ => False := by
  have served : ∀ n, Tallied making none (frontend.served (hosts n) (some key) .here (.deregisterApp id)) :=
    fun n => tally_deregister tallied (sound n)
  have asked : Ends (request hosts (some key) (.deregisterApp id)) frontend (fun _ => Tallied making none) (Tallied making none) :=
    ends_imp (ends_served hosts (some key) frontend (.deregisterApp id)) (fun _ _ same => same ▸ served _) fun _ same => same ▸ served _
  exact ends_catch (ends_bind asked fun _ _ kept => kept) fun _ _ kept => kept

theorem ends_registering (free : frontend.registry.Free appPid) (nonNegative : 0 ≤ appPid.toInt) (tallied : Tallied making none frontend) :
    Ends (requestRegisterApp hosts (some key) appPid) frontend
      (fun appId after => Tallied making (some appId) after ∧ (after.Few → appId ≠ 0)) fun after => ¬ after.Few := by
  have acquired : Tallied making (some (frontend.registry.lastId + 1)) (frontend.registered hosts key appPid) := by
    refine tally_acquired tallied (sound _) (fun _ same => by cases same; exact nonNegative) rfl fun other => ?_
    change (after (operate _ .RegisterApp (.registerApp appPid) frontend.registry)).Registered other ↔ _
    rw [operate_free free]
    exact added_registered
  have positive := fun few => tally_positive (acquired few) few
  rw [Ends,register_free free]
  by_cases negative : (frontend.registry.lastId + 1).toInt < 0
  · rw [if_pos negative]
    exact fun few => absurd (positive few) (by omega)
  · rw [if_neg negative]
    refine ⟨acquired,fun few zero => ?_⟩
    have above := positive few
    rw [zero] at above
    cases above

theorem ends_refused (taken : ¬ frontend.registry.Free appPid) (nonNegative : 0 ≤ appPid.toInt) (tallied : Tallied making none frontend) :
    Ends (requestRegisterApp hosts (some key) appPid) frontend (fun appId after => appId = 0 ∧ Tallied making none after) fun _ => False := by
  let host := hosts frontend.sent.length
  have refused : operate host .RegisterApp (.registerApp appPid) frontend.registry =
      .error (ascii "duplicate app pid: " ++ showInt appPid.toInt) frontend.registry := registerAppPID_taken taken
  have kept : Tallied making none (frontend.registered hosts key appPid) := by
    intro few'
    have few := few_served .here few'
    have tally := tallied few
    have allowed : ∀ other, Command.registerApp appPid = .registerApp other → 0 ≤ other.toInt := by
      intro other same
      cases same
      exact nonNegative
    obtain ⟨numbered,tables⟩ := tables_served tally.numbered tally.tables few (sound frontend.sent.length) allowed
    refine tally_frame tally numbered tables (fun id => ?_) rfl rfl
    change (after (operate host .RegisterApp (.registerApp appPid) frontend.registry)).Registered id ↔ _
    rw [refused]
    rfl
  have asked : ask hosts (some key) .here .RegisterApp (.registerApp appPid) frontend =
      .ok (.error (cstr (ascii "duplicate app pid: " ++ showInt appPid.toInt))) (frontend.registered hosts key appPid) :=
    congrArg (EStateM.Result.ok · _) ((operations_answered .RegisterApp).trans (congrArg answered refused))
  unfold requestRegisterApp request
  rw [bind_assoc]
  exact ends_exact (bind_after asked) ⟨rfl,kept⟩

end Working

def Site.Clear (site : Site) : Prop := site.settled = none ∧ site.finished = none

section Constructors
variable {hosts : Nat → Host} {key : Nat} {frontend : Frontend} {making : Option Nat} {id : Id} {site : Site}

structure Ready (making : Option Nat) (app : Application) (frontend : Frontend) : Prop where
  tallied : Tallied making app.here frontend
  holds : app.kind ≠ .EproxySLURM → app.kind ≠ .ALPS → app.kind ≠ .Flux → app.kind ≠ .Localhost → frontend.Holds app.daemonAppId
  barrier : app.kind = .PALS → app.atBarrier = true

theorem ends_newGenericSSHApp (clear : site.Clear) (named : frontend.Few → id ≠ 0) : Ends (newGenericSSHApp id site) frontend
      (fun app after => app = ⟨.GenericSSH,id,0,0,false,false⟩ ∧ after = frontend) fun after => ¬ after.Few := by
  refine ends_clear clear.1 ?_
  split
  · rename_i zero
    exact fun few => named few zero
  · exact ends_clear clear.2 ⟨rfl,rfl⟩

variable (sound : ∀ n, (hosts n).Sound)
include sound

theorem ends_newSLURMApp (obliging : ∀ n, (hosts n).Obliging) (clear : site.Clear) (bare : site.wrapper = none)
    (named : id ≠ 0) (tallied : Tallied making (some id) frontend) (holds : frontend.Holds id) :
    Ends (newSLURMApp hosts key kind id [] [] site) frontend
      (fun app after => app = ⟨kind,id,0,0,false,false⟩ ∧ Tallied making (some id) after ∧ after.Holds id) fun after => ¬ after.Few := by
  refine ends_bind (ends_readNumber sound obliging tallied holds) fun _ after one => ?_
  refine ends_bind (ends_readNumber sound obliging one.1 one.2) fun _ after two => ?_
  refine ends_clear clear.1 ?_
  rw [if_neg named,bare]
  exact ends_clear clear.2 ⟨rfl,two⟩

theorem ends_newPALSApp (clear : site.Clear) (runs : ∀ n, (hosts n).Runs mkdir.launch.meant) (tallied : Tallied making (some id) frontend) :
    Ends (newPALSApp hosts key id atBarrier mkdir site) frontend
      (fun app after => app = ⟨.PALS,id,0,0,false,atBarrier⟩ ∧ Tallied making (some id) after ∧
        ∀ mpirId, frontend.Holds mpirId → after.Holds mpirId) fun after => ¬ after.Few := by
  refine ends_clear clear.1 (ends_bind (ends_runUtility sound runs tallied) fun _ after done => ?_)
  exact ends_clear clear.2 ⟨rfl,done⟩

theorem ends_newFluxApp (clear : site.Clear) (tallied : Tallied making none frontend) : Ends (newFluxApp hosts key attachPid site) frontend
      (fun app after => app.kind = .Flux ∧ Tallied making app.here after) fun after => ¬ after.Few := by
  refine ends_bind (ends_registering sound (.inl rfl) (by decide) tallied) fun appId after done => ends_clear clear.1 ?_
  cases attachPid with
  | none => exact ends_clear clear.2 ⟨rfl,done.1⟩
  | some pid =>
    refine ends_bind (ends_drop (ends_registerUtils sound done.1).2) fun _ after kept => ?_
    exact ends_clear clear.2 ⟨rfl,kept⟩

theorem ends_launchAprun (free : frontend.registry.Free aprunPid.1) (finished : site.finished = none)
    (tallied : Tallied making none frontend) : Ends (launchAprun hosts key aprunPid wrapper site) frontend
      (fun app after => app.kind = .ALPS ∧ Tallied making app.here after) (Tallied making none) := by
  unfold launchAprun
  cases settled : site.settled with
  | some failure => exact tallied
  | none =>
    refine ends_clear rfl (ends_bind (ends_lax (ends_registering sound free (Int.le_of_lt aprunPid.2) tallied)) fun appId after done => ?_)
    cases wrapper with
    | none => exact ends_clear finished ⟨rfl,done.1⟩
    | some pid =>
      refine ends_bind (ends_lax (ends_drop (ends_registerUtils sound done.1).1)) fun _ after kept => ?_
      exact ends_clear finished ⟨rfl,kept⟩

end Constructors

end CommonTools.Applications
