import CommonTools.Applications.Custody

namespace CommonTools.Applications
open FeDaemon OrderedMaps Programs Credentials List
open Interface (Handle Handles FrontendClass)

section Basics
variable {κ : Type} {Holds : List κ → Frontend → Prop} [Weakens Holds] {own : List κ}

theorem keeps_trouble (outcome : Option Failure) : Keeps Holds own (trouble outcome) := by
  cases outcome with
  | none => exact keeps_pure
  | some failure => exact gains_throw

theorem gains_kept (gains : Gains Holds own act gain) : Keeps Holds own act := gains_less gains fun _ => nil_subset _

theorem gains_map {f : α → β} {gain : α → List κ} {gain' : β → List κ}
    (first : Gains Holds own act gain) (inside : ∀ value, gain' (f value) ⊆ own ++ gain value) :
    Gains Holds own (act >>= fun value => pure (f value)) gain' :=
  gains_bind first fun value => gains_pure (inside value)

theorem keeps_quietly (keeps : Keeps Holds own act) : Keeps Holds own (quietly act) :=
  gains_catch (keeps_bind keeps fun _ => keeps_pure) fun _ => keeps_pure

theorem gains_unwinding (first : Gains Holds own act gain) (cleans : Keeps Holds own clean) : Gains Holds own (unwinding clean act) gain :=
  gains_catch first fun failure => keeps_bind cleans fun _ => gains_throw

theorem keeps_unlessSent (keeps : Keeps Holds own act) : Keeps Holds own (unlessSent app act) := by
  unfold unlessSent
  split
  · exact keeps_pure
  · exact keeps

theorem keeps_ifIssued (keeps : Keeps Holds own act) : Keeps Holds own (ifIssued mpirId act) := by
  unfold ifIssued
  split
  · exact keeps
  · exact keeps_pure

theorem keeps_ifGiven {act : α → Work Unit} (keeps : ∀ value, Keeps Holds own (act value)) (given : Option α) :
    Keeps Holds own (ifGiven given act) := by
  cases given with
  | none => exact keeps_pure
  | some value => exact keeps value

theorem keeps_parsed : Keeps Holds own (parsed text name) := by
  unfold parsed
  split
  · exact keeps_pure
  · exact gains_throw

theorem keeps_givenNumber (present : given ≠ []) : Keeps Holds own (readNumber hosts key appId given name what) := by
  rw [readNumber,if_neg present]
  exact keeps_parsed

end Basics

-- What a program may do that only uses the ids it has been given: requests that
-- neither register nor deregister anything, and changes to the objects that do not
-- touch their ids.
structure Lenient {κ : Type} (hosts : Nat → Host) (key : Nat) (Holds : List κ → Frontend → Prop) (own : List κ)
    (ids : List (Endpoint × Id)) : Prop where
  asks : ∀ endpoint type command, command.type = type → command.quiet = true → (∀ id, command.target = some id → (endpoint,id) ∈ ids) →
    Keeps Holds own (ask hosts (some key) endpoint type command)
  revises : ∀ other update, (∀ app, (update app).ids = app.ids) → (∀ app, (update app).kind = app.kind) →
    Keeps Holds own (modify (·.revise other update) : Work PUnit)

section Given
variable {κ : Type} {Holds : List κ → Frontend → Prop} [Weakens Holds] {own : List κ} {hosts : Nat → Host} {key : Nat}
  {ids : List (Endpoint × Id)} {app : Application}

theorem ids_here (mine : app.ids ⊆ ids) (kind : app.kind ≠ .Localhost) : (.here,app.daemonAppId) ∈ ids := by
  refine mine ?_
  unfold Application.ids
  split
  · rename_i same; exact absurd same kind
  · exact mem_cons_self
  · exact mem_cons_self

theorem ids_there (mine : app.ids ⊆ ids) (kind : app.kind = .EproxySLURM) : (.there app.remoteDaemon,app.remoteMpirId) ∈ ids := by
  refine mine ?_
  rw [Application.ids,kind]
  exact mem_cons_of_mem _ mem_cons_self

variable (lenient : Lenient hosts key Holds own ids)
include lenient

theorem keeps_request (quiet : wanted.meant.quiet = true)
    (target : ∀ id, wanted.meant.target = some id → (.here,id) ∈ ids) : Keeps Holds own (request hosts (some key) wanted) :=
  keeps_bind (lenient.asks .here _ _ meant_type quiet target) fun _ => gains_raised fun _ _ => nil_subset _

theorem keeps_aimed (quiet : wanted.meant.quiet = true) (aimed : wanted.meant.target = some appId) (mine : (.here,appId) ∈ ids) :
    Keeps Holds own (request hosts (some key) wanted) :=
  keeps_request lenient quiet fun _ same => Option.some.inj (aimed.symm.trans same) ▸ mine

omit [Weakens Holds] in
theorem keeps_told (same : command.type = type) (quiet : command.quiet = true) (aimed : command.target = some appId)
    (mine : (.there remote,appId) ∈ ids) : Keeps Holds own (ask hosts (some key) (.there remote) type command) :=
  lenient.asks _ _ _ same quiet fun _ other => Option.some.inj (aimed.symm.trans other) ▸ mine

omit [Weakens Holds] in
theorem keeps_daemonSent : Keeps Holds own (daemonSent other) := lenient.revises other _ (fun _ => rfl) fun _ => rfl

theorem keeps_utilSync (mine : (.here,appId) ∈ ids) {launch : Launch} :
    Keeps Holds own (forkExecvpUtilSync hosts (some key) appId launch) :=
  keeps_bind (keeps_aimed lenient rfl rfl mine) fun _ => keeps_pure

theorem keeps_utilAsync (mine : (.here,appId) ∈ ids) {launch : Launch} :
    Keeps Holds own (forkExecvpUtilAsync hosts (some key) appId launch) :=
  keeps_bind (keeps_aimed lenient rfl rfl mine) fun _ => keeps_pure

theorem keeps_readString (mine : (.here,mpirId) ∈ ids) : Keeps Holds own (requestReadStringMPIR hosts (some key) mpirId name) :=
  keeps_bind (keeps_aimed lenient rfl rfl mine) fun _ => keeps_pure

theorem keeps_remoteReadString (mine : (.there remote,mpirId) ∈ ids) :
    Keeps Holds own (remoteReadStringMPIR hosts (some key) remote mpirId name) :=
  keeps_bind (keeps_told lenient rfl rfl rfl mine) fun _ =>
    keeps_bind (gains_raised fun _ _ => nil_subset _) fun _ => keeps_pure

theorem keeps_remoteRelease (mine : (.there remote,mpirId) ∈ ids) : Keeps Holds own (remoteReleaseMPIR hosts (some key) remote mpirId) :=
  keeps_bind (keeps_told lenient rfl rfl rfl mine) fun _ => keeps_pure

theorem keeps_stopRemote (remote : Nat) : Keeps Holds own (stopRemoteDaemon hosts (some key) remote) :=
  keeps_bind (lenient.asks (.there remote) .Shutdown _ rfl rfl nofun) fun _ => keeps_pure

theorem keeps_runUtility (mine : (.here,appId) ∈ ids) {utility : Utility} : Keeps Holds own (runUtility hosts key appId utility) := by
  refine keeps_bind (keeps_utilSync lenient mine) fun success => ?_
  split
  · exact keeps_pure
  · exact gains_throw

theorem keeps_sbcast (mine : (.here,appId) ∈ ids) {utility : Utility} {tries : Nat} :
    Keeps Holds own (sbcast hosts key appId utility tries) := by
  induction tries with
  | zero => exact gains_throw
  | succ triesLeft ih =>
    refine keeps_bind (keeps_utilSync lenient mine) fun success => ?_
    split
    · exact keeps_pure
    · exact ih

section
variable (mine : app.ids ⊆ ids)
include mine

theorem keeps_shipPackage : Keeps Holds own (shipPackage hosts key app package) := by
  have here := ids_here mine
  refine keeps_bind (keeps_trouble _) fun _ => ?_
  cases kind : app.kind with
  | SLURM | HPCMSLURM | EproxySLURM => exact keeps_sbcast lenient (here (by simp [kind]))
  | PALS => exact keeps_bind (keeps_runUtility lenient (here (by simp [kind]))) fun _ => keeps_runUtility lenient (here (by simp [kind]))
  | GenericSSH | ALPS | Flux | Localhost => exact keeps_pure

theorem keeps_shipDaemon : Keeps Holds own (shipDaemon hosts key app found package) := by
  refine keeps_unlessSent (keeps_bind (keeps_trouble _) fun _ => ?_)
  exact keeps_bind (keeps_shipPackage lenient mine) fun _ => keeps_daemonSent lenient

theorem keeps_checkFilesExist : Keeps Holds own (checkFilesExist hosts key app start) := by
  have here := ids_here mine
  unfold checkFilesExist
  cases kind : app.kind with
  | SLURM | HPCMSLURM | EproxySLURM =>
    exact keeps_bind (keeps_shipDaemon lenient mine) fun _ => keeps_utilAsync lenient (here (by simp [kind]))
  | PALS => exact keeps_utilAsync lenient (here (by simp [kind]))
  | GenericSSH | ALPS | Flux | Localhost => exact keeps_trouble _

theorem keeps_kill {utility : Utility} {checkScancelOutput : Bool} {sent : Option Failure} :
    Keeps Holds own (kill hosts key app utility checkScancelOutput sent) := by
  have here := ids_here mine
  unfold kill
  cases kind : app.kind with
  | SLURM | HPCMSLURM | EproxySLURM =>
    dsimp only
    split
    · exact keeps_bind (keeps_utilAsync lenient (here (by simp [kind]))) fun _ => keeps_trouble _
    · exact keeps_runUtility lenient (here (by simp [kind]))
  | ALPS | PALS => exact keeps_runUtility lenient (here (by simp [kind]))
  | GenericSSH | Flux | Localhost => exact keeps_trouble _

theorem keeps_releaseBarrier : Keeps Holds own (releaseBarrier hosts key app done) := by
  have here := ids_here mine
  unfold releaseBarrier
  cases kind : app.kind with
  | SLURM | HPCMSLURM | GenericSSH => exact keeps_bind (keeps_aimed lenient rfl rfl (here (by simp [kind]))) fun _ => keeps_pure
  | PALS =>
    dsimp only
    split
    · exact keeps_bind (keeps_aimed lenient rfl rfl (here (by simp [kind]))) fun _ => lenient.revises _ _ (fun _ => rfl) fun _ => rfl
    · exact gains_throw
  | EproxySLURM => exact keeps_ifIssued (keeps_remoteRelease lenient (ids_there mine kind))
  | ALPS | Flux | Localhost => exact keeps_trouble _

theorem keeps_isRunning (remote : app.kind = .EproxySLURM → (.there app.remoteDaemon,app.daemonAppId) ∈ ids) :
    Keeps Holds own (isRunning hosts key app reported) := by
  have here := ids_here mine
  unfold isRunning
  cases kind : app.kind with
  | GenericSSH | ALPS => exact keeps_bind (keeps_aimed lenient rfl rfl (here (by simp [kind]))) fun _ => keeps_pure
  | EproxySLURM => exact keeps_bind (keeps_told lenient rfl rfl rfl (remote kind)) fun _ => keeps_pure
  | SLURM | HPCMSLURM | PALS | Flux | Localhost => exact gains_raised fun _ _ => nil_subset _

end

theorem keeps_readNumber (mine : (.here,appId) ∈ ids) : Keeps Holds own (readNumber hosts key appId given name what) := by
  by_cases absent : given = []
  · rw [readNumber,if_pos absent]
    exact keeps_bind (keeps_readString lenient mine) fun _ => keeps_parsed
  · exact keeps_givenNumber absent

theorem keeps_reparentProctable (mine : (.here,appId) ∈ ids) (wrapper : Wrapper) :
    Keeps Holds own (reparentProctable hosts key appId wrapper) := by
  refine keeps_bind (keeps_trouble _) fun _ => keeps_bind (keeps_sbcast lenient mine) fun _ => ?_
  exact keeps_forM fun query _ => keeps_utilAsync lenient mine

theorem gains_newSLURMApp {gain : Application → List κ} (kind : FrontendClass) (mine : (.here,mpirId) ∈ ids)
    (jobId stepId : Bytes) (site : Site) (inside : gain ⟨kind,mpirId,0,0,false,false⟩ ⊆ own) :
    Gains Holds own (newSLURMApp hosts key kind mpirId jobId stepId site) gain := by
  refine keeps_bind (keeps_readNumber lenient mine) fun _ => keeps_bind (keeps_readNumber lenient mine) fun _ => ?_
  refine keeps_bind (keeps_trouble _) fun _ => ?_
  split
  · exact gains_throw
  · refine keeps_bind (keeps_ifGiven (keeps_reparentProctable lenient mine) _) fun _ => keeps_bind (keeps_trouble _) fun _ => ?_
    exact gains_pure inside

theorem keeps_startDaemon_plain (mine : app.ids ⊆ ids) (plain : app.kind.slurm = false) :
    Keeps Holds own (startDaemon hosts key app start) := by
  have here := ids_here mine
  unfold startDaemon
  cases kind : app.kind with
  | SLURM | HPCMSLURM | EproxySLURM => rw [kind] at plain; cases plain
  | GenericSSH =>
    have mine := here (by simp [kind])
    refine keeps_bind (keeps_unlessSent (keeps_bind (keeps_trouble _) fun _ => ?_)) fun _ => keeps_trouble _
    refine keeps_bind (keeps_runUtility lenient mine) fun _ => ?_
    exact keeps_bind (keeps_trouble _) fun _ => keeps_daemonSent lenient
  | ALPS =>
    have mine := here (by simp [kind])
    refine keeps_bind (keeps_unlessSent (keeps_runUtility lenient mine)) fun _ => ?_
    exact keeps_bind (keeps_trouble _) fun _ => keeps_daemonSent lenient
  | PALS =>
    have mine' := here (by simp [kind])
    refine keeps_bind (keeps_unlessSent (keeps_bind (keeps_trouble _) fun _ => ?_)) fun _ => keeps_utilAsync lenient mine'
    refine keeps_bind (keeps_runUtility lenient mine') fun _ => ?_
    exact keeps_bind (keeps_shipPackage lenient mine) fun _ => keeps_daemonSent lenient
  | Flux | Localhost => exact keeps_trouble _

end Given

section Holding
variable {hosts : Nat → Host} {key : Nat} {own : List (Endpoint × Id)}

theorem revise_found {frontend : Frontend} {update : Application → Application}
    (found : (frontend.revise other update).apps.find owner = some app) :
    ∃ before, frontend.apps.find owner = some before ∧ (app = before ∨ app = update before) := by
  unfold Frontend.revise at found
  cases old : frontend.apps.find other with
  | none => simp only [old] at found; exact ⟨app,found,.inl rfl⟩
  | some before =>
    simp only [old,OrderedMap.find_insert] at found
    split at found
    · rename_i equal
      cases found
      exact ⟨before,equal ▸ old,.inr rfl⟩
    · exact ⟨app,found,.inl rfl⟩

theorem keeps_revise {update : Application → Application} (same : ∀ app, (update app).ids = app.ids) :
    Keeps (Holding key) own (modify (·.revise other update) : Work PUnit) := by
  refine gains_modify fun frontend holding few => ?_
  obtain ⟨kept,issued⟩ := holding few
  refine ⟨{kept with owned := ?_},issued⟩
  intro owner app found pair mine
  obtain ⟨before,there,rfl | rfl⟩ := revise_found found
  · exact kept.owned owner app there pair mine
  · exact kept.owned owner before there pair (same before ▸ mine)

theorem holding_lenient (sound : ∀ n, (hosts n).Sound) : Lenient hosts key (Holding key) own own where
  asks := by
    intro endpoint type command same quiet target
    refine gains_kept (gains_ask sound same (fun appPid registers => ?_) target)
    rw [registers] at quiet
    cases quiet
  revises := fun _ _ same _ => keeps_revise same

theorem keeps_startRemoteDaemon : Keeps (Holding key) own startRemoteDaemon := by
  intro frontend holding
  change Holding key (own ++ []) {frontend with hired := frontend.hired + 1}
  rw [append_nil]
  intro few
  obtain ⟨kept,issued⟩ := holding few
  exact ⟨{kept with},issued⟩

end Holding

section Requests
variable {hosts : Nat → Host} {key : Nat} {own : List (Endpoint × Id)} (sound : ∀ n, (hosts n).Sound)
include sound

theorem gains_registering {appPid : Pid} (nonNegative : 0 ≤ appPid.toInt) :
    Gains (Holding key) own (requestRegisterApp hosts (some key) appPid) (known .here) := by
  refine gains_map (gains_request sound (fun _ same => ?_) nofun) fun value => ?_
  · cases same; exact nonNegative
  · cases value with
    | id given => exact subset_append_right _ _
    | _ => exact nil_subset _

omit sound in
theorem gains_seenMPIR (endpoint : Endpoint) (outcome : Except CStr MPIRResult) :
    Gains (Holding key) (own ++ numbers endpoint .mpir outcome) (raised (seenMPIR outcome) >>= fun value => pure value.result)
      (fun result => [(endpoint,result.mpirId)]) := by
  cases outcome with
  | error message => exact gains_throw
  | ok result =>
    simp only [seenMPIR]
    split
    · exact gains_throw
    · exact gains_pure (by simp [Returned.result,numbers,idOf])

theorem gains_result (endpoint : Endpoint) (type : ReqType) {command : Command} (same : command.type = type)
    (nonNegative : ∀ appPid, command ≠ .registerApp appPid) (target : command.target = none)
    {read : Except CStr (Answer type.family) → Work MPIRRead}
    (reads : ∀ outcome : Except CStr (Answer type.family), Gains (Holding key) (own ++ numbers endpoint type.family outcome) (read outcome)
      fun result => [(endpoint,result.mpirId)]) :
    Gains (Holding key) own (ask hosts (some key) endpoint type command >>= read) (fun result => [(endpoint,result.mpirId)]) := by
  refine gains_bind (gains_ask sound same (fun appPid wrong => absurd wrong (nonNegative appPid)) ?_) reads
  intro id aimed
  rw [target] at aimed
  cases aimed

theorem gains_launching (launch : Launch) :
    Gains (Holding key) own (requestLaunchMPIR hosts (some key) launch) (fun result => [(.here,result.mpirId)]) := by
  unfold requestLaunchMPIR request
  rw [bind_assoc]
  exact gains_result sound .here .LaunchMPIR rfl (fun _ wrong => by cases wrong) rfl (gains_seenMPIR .here)

theorem gains_attaching (launcherPath : CStr) (launcherPid : Pid) :
    Gains (Holding key) own (requestAttachMPIR hosts (some key) launcherPath launcherPid) (fun result => [(.here,result.mpirId)]) := by
  unfold requestAttachMPIR request
  rw [bind_assoc]
  exact gains_result sound .here .AttachMPIR rfl (fun _ wrong => by cases wrong) rfl (gains_seenMPIR .here)

theorem gains_remoteLaunch (remote : Nat) (launch : Launch) :
    Gains (Holding key) own (remoteLaunchMPIR hosts (some key) remote launch) (fun result => [(.there remote,result.mpirId)]) :=
  gains_result sound (.there remote) .LaunchMPIR rfl (fun _ wrong => by cases wrong) rfl (gains_seenMPIR (.there remote))

theorem keeps_deregister (mine : (.here,appId) ∈ own) :
    Keeps (Holding key) own (quietly (request hosts (some key) (.deregisterApp appId))) := by
  refine keeps_quietly (gains_kept (gains_request sound nofun fun id same => ?_))
  cases same; exact mine

end Requests

section Operations
variable {hosts : Nat → Host} {key : Nat} {own : List (Endpoint × Id)} {app : Application} (sound : ∀ n, (hosts n).Sound)

include sound

theorem gains_launchUnder {shim : Option (CStr × CStr × CStr)} {launch : Launch} :
    Gains (Holding key) own (launchUnder hosts key shim launch) (fun result => [(.here,result.mpirId)]) := by
  unfold launchUnder
  split
  · unfold request
    rw [bind_assoc]
    exact gains_result sound .here .LaunchMPIRShim rfl (fun _ wrong => by cases wrong) rfl (gains_seenMPIR .here)
  · exact gains_launching sound _

theorem gains_srunMPIR {srun : Srun} : Gains (Holding key) own (srunMPIR hosts key srun) (fun result => [(.here,result.mpirId)]) := by
  refine gains_bind (gains_launchUnder sound) fun result => ?_
  split
  · exact gains_pure (subset_append_right _ _)
  · split
    · exact gains_throw
    · split
      · exact gains_throw
      · exact gains_pure (subset_append_right _ _)

theorem gains_srunDaemon :
    Gains (Holding key) own (srunDaemon hosts key start) (fun result => result.toList.map fun result => (.here,result.mpirId)) := by
  refine gains_catch (gains_map (gains_srunMPIR sound) fun result => ?_) fun failure => ?_
  · exact subset_append_right _ _
  · split
    · exact gains_pure (nil_subset _)
    · exact gains_throw

theorem keeps_startDaemon (mine : app.ids ⊆ own) : Keeps (Holding key) own (startDaemon hosts key app start) := by
  cases plain : app.kind.slurm with
  | false => exact keeps_startDaemon_plain (holding_lenient sound) mine plain
  | true =>
    have srun : startDaemon hosts key app start = (do
        shipDaemon hosts key app start.found start.package
        trouble start.ready
        settleDaemon hosts key start (← srunDaemon hosts key start)) := by
      unfold startDaemon
      cases kind : app.kind with
      | SLURM | HPCMSLURM | EproxySLURM => rfl
      | _ => rw [kind] at plain; cases plain
    rw [srun]
    refine keeps_bind (keeps_shipDaemon (holding_lenient sound) mine) fun _ => keeps_bind (keeps_trouble _) fun _ => ?_
    refine gains_bind (gains_srunDaemon sound) fun result => ?_
    cases result with
    | none => exact keeps_pure
    | some result =>
      have inside : (.here,result.mpirId) ∈ own ++ [(Endpoint.here,result.mpirId)] := by simp
      dsimp only [settleDaemon]
      split
      · exact keeps_bind (keeps_aimed (holding_lenient sound) rfl rfl inside) fun _ => keeps_pure
      · exact keeps_bind (keeps_aimed (holding_lenient sound) rfl rfl inside) fun _ => keeps_pure

theorem keeps_destructApp (mine : app.ids ⊆ own) : Keeps (Holding key) own (destructApp hosts key app palscmd) := by
  have here := ids_here mine
  unfold destructApp
  cases kind : app.kind with
  | SLURM | HPCMSLURM | GenericSSH | Flux => exact keeps_deregister sound (here (by simp [kind]))
  | EproxySLURM =>
    refine keeps_bind (keeps_ifIssued (keeps_bind (gains_kept (gains_ask sound rfl nofun fun id same => ?_)) fun _ => keeps_pure)) fun _ => ?_
    · cases same; exact ids_there mine kind
    exact keeps_bind (keeps_stopRemote (holding_lenient sound) _) fun _ => keeps_deregister sound (here (by simp [kind]))
  | PALS => exact keeps_quietly (keeps_utilSync (holding_lenient sound) (here (by simp [kind])))
  | ALPS | Localhost => exact keeps_pure

end Operations

end CommonTools.Applications
