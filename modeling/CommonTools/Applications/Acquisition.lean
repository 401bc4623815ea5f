import CommonTools.Applications.Discipline

namespace CommonTools.FeDaemon

def Host.Legible (host : Host) : Prop := ∀ instance' name text, host.readStringAt instance' name = .ok text → text.1 ≠ []

end CommonTools.FeDaemon

namespace CommonTools.Applications
open FeDaemon Numerals OrderedMaps Programs Credentials List
open Application hiding atBarrier kind
open Interface (Handle Handles FrontendClass)

section Registration
variable {hosts : Nat → Host} {key : Nat} {own : List (Endpoint × Id)} {frontend frontend' : Frontend}

theorem operate_free (free : registry.Free appPid) :
    operate host .RegisterApp (.registerApp appPid) registry = .ok (registry.lastId + 1) (registry.added appPid) :=
  registerAppPID_free free

theorem served_lastId (free : frontend.registry.Free appPid) :
    (frontend.served host app .here (.registerApp appPid)).registry.lastId = frontend.registry.lastId + 1 := by
  change (after (operate host .RegisterApp (.registerApp appPid) frontend.registry)).lastId = _
  rw [operate_free free]
  rfl

theorem last_nonNegative (kept : frontend.Kept) (few : frontend.Few) : 0 ≤ frontend.registry.lastId.toInt := by
  rw [Frontend.registry,kept.numbered.last,BitVec.toInt_eq_toNat_of_lt]
  · exact Int.natCast_nonneg _
  · have small := few
    unfold Frontend.Few at small
    simp only [BitVec.toNat_ofNat]
    omega

theorem raised_number : (raised (seenID (.ok appId)) >>= fun value => pure value.number : Work Id) frontend =
      if appId.toInt < 0 then .error (.text "failed to read DaemonAppID response") frontend else .ok appId frontend := by
  by_cases negative : appId.toInt < 0
  · rw [seenID,if_pos negative,if_pos negative]; rfl
  · rw [seenID,if_neg negative,if_neg negative]; rfl

def Frontend.registered (hosts : Nat → Host) (key : Nat) (appPid : Pid) (frontend : Frontend) : Frontend :=
  frontend.served (hosts frontend.sent.length) (some key) .here (.registerApp appPid)

theorem ask_free (free : frontend.registry.Free appPid) : ask hosts (some key) .here .RegisterApp (.registerApp appPid) frontend =
      .ok (.ok (frontend.registry.lastId + 1)) (frontend.registered hosts key appPid) := by
  refine congrArg (EStateM.Result.ok · _) ?_
  change operations (hosts frontend.sent.length) frontend.registry .RegisterApp (.registerApp appPid) = _
  rw [operations,operate_free free]

theorem register_free (free : frontend.registry.Free appPid) : requestRegisterApp hosts (some key) appPid frontend =
      if (frontend.registry.lastId + 1).toInt < 0
      then .error (.text "failed to read DaemonAppID response") (frontend.registered hosts key appPid)
      else .ok (frontend.registry.lastId + 1) (frontend.registered hosts key appPid) := by
  unfold requestRegisterApp request
  rw [bind_assoc]
  exact (bind_after (ask_free free)).trans raised_number

variable (sound : ∀ n, (hosts n).Sound)
include sound

theorem from_registering (free : frontend.registry.Free appPid) (nonNegative : 0 ≤ appPid.toInt) (holding : Holding key own frontend) :
    GainsFrom (Holding key) own (requestRegisterApp hosts (some key) appPid) (fun appId => [(.here,appId)]) frontend := by
  refine from_of (fun appId frontend' done => ?_) fun failure frontend' failed => ?_
  · have asked : Gains (Holding key) own (ask hosts (some key) .here .RegisterApp (.registerApp appPid)) (numbers .here .id) :=
      gains_ask sound rfl (fun _ same => by cases same; exact nonNegative) nofun
    rw [register_free free] at done
    split at done
    · cases done
    · cases done
      have more := gains_ok asked holding (ask_free free)
      exact more
  · exact gains_error (gains_registering sound nonNegative) holding failed

omit sound in
theorem registering_exhausts {failure : Failure} (free : frontend.registry.Free appPid) (holding : Holding key own frontend')
    (failed : requestRegisterApp hosts (some key) appPid frontend = .error failure frontend') : ¬ frontend'.Few := by
  intro few
  rw [register_free free] at failed
  split at failed
  · cases failed
    have bound := last_nonNegative (holding few).1 few
    rw [Frontend.registered,served_lastId free] at bound
    omega
  · cases failed

theorem gains_registeringNone : Gains (Holding key) own (requestRegisterApp hosts (some key) 0) (fun appId => [(.here,appId)]) :=
  fun _ holding => from_registering sound (.inl rfl) (by decide) holding

end Registration

def Exhausted (_ : List Unit) (frontend : Frontend) : Prop := ¬ frontend.Few

section Exhaustion
variable {hosts : Nat → Host}

instance weakensExhausted : Weakens Exhausted := ⟨fun _ _ _ _ exhausted => exhausted⟩

theorem exhausted_ask : Keeps Exhausted [] (ask hosts app endpoint type command) := fun _ exhausted few => exhausted (few_advance few)

theorem exhausted_stop : Keeps Exhausted [] (stopRemoteDaemon hosts app remote) := keeps_bind exhausted_ask fun _ => keeps_pure

theorem exhausted_request : Keeps Exhausted [] (request hosts app wanted) :=
  keeps_bind exhausted_ask fun _ => gains_raised fun _ _ => nil_subset _

end Exhaustion

section Constructors
variable {hosts : Nat → Host} {key : Nat} {own : List (Endpoint × Id)} (sound : ∀ n, (hosts n).Sound)

theorem keeps_baseSLURMApp (job : jobId ≠ []) (step : stepId ≠ []) (bare : site.wrapper = none) :
    Keeps (Holding key) own (newSLURMApp hosts key kind mpirId jobId stepId site) := by
  refine keeps_bind (keeps_givenNumber job) fun _ => keeps_bind (keeps_givenNumber step) fun _ => ?_
  refine keeps_bind (keeps_trouble _) fun _ => ?_
  split
  · exact gains_throw
  · rw [bare]
    exact keeps_bind keeps_pure fun _ => keeps_bind (keeps_trouble _) fun _ => keeps_pure

include sound

theorem gains_newEproxySLURMApp {remote : Nat} {mpirId : Id} (mine : (.there remote,mpirId) ∈ own) {jobId stepId : Bytes}
    (job : jobId ≠ []) (step : stepId ≠ []) {site : Site} (bare : site.wrapper = none) :
    Gains (Holding key) own (newEproxySLURMApp hosts key remote mpirId jobId stepId site) ids := by
  refine keeps_bind (gains_unwinding (keeps_baseSLURMApp job step bare) (keeps_stopRemote (holding_lenient sound) remote)) fun _ => ?_
  -- A registration that throws has found the ids exhausted, and then the remote
  -- daemon's id may go to the local one.
  have registers : Gains (Holding key) own (unwinding
      (do
        stopRemoteDaemon hosts (some key) remote
        quietly (request hosts (some key) (.deregisterApp mpirId)))
      (requestRegisterApp hosts (some key) 0)) (fun appId => [(.here,appId)]) := by
    intro frontend holding
    refine from_catch (gains_registeringNone sound frontend holding) fun failure frontend' failed kept => ?_
    have exhausted := registering_exhausts (.inl rfl) kept failed
    refine from_of (fun _ _ done => ?_) fun message t stopped => ?_
    · obtain ⟨_,_,_,wrong⟩ := bind_ok.mp done
      cases wrong
    · have cleaned : Keeps Exhausted [] (do
          stopRemoteDaemon hosts (some key) remote
          quietly (request hosts (some key) (.deregisterApp mpirId))) :=
        keeps_bind exhausted_stop fun _ => keeps_quietly exhausted_request
      have done : Keeps Exhausted [] (do
          (do
            stopRemoteDaemon hosts (some key) remote
            quietly (request hosts (some key) (.deregisterApp mpirId)))
          throw failure : Work Id) := keeps_bind cleaned fun _ => gains_throw
      exact fun few => absurd few (gains_error done exhausted stopped)
  refine gains_bind registers fun appId => gains_pure ?_
  simpa [ids] using mine

omit sound in
theorem gains_newGenericSSHApp (mine : known .here mpirId ⊆ own) : Gains (Holding key) own (newGenericSSHApp mpirId site) ids := by
  refine keeps_bind (keeps_trouble _) fun _ => ?_
  split
  · exact gains_throw
  · rename_i nonzero
    refine keeps_bind (keeps_trouble _) fun _ => gains_pure ?_
    rwa [known,if_neg nonzero] at mine

theorem gains_newPALSApp (mine : (.here,appId) ∈ own) : Gains (Holding key) own (newPALSApp hosts key appId atBarrier mkdir site) ids := by
  refine keeps_bind (keeps_trouble _) fun _ => keeps_bind (keeps_runUtility (holding_lenient sound) mine) fun _ => ?_
  refine keeps_bind (keeps_trouble _) fun _ => gains_pure ?_
  simpa [ids] using mine

theorem gains_newFluxApp : Gains (Holding key) own (newFluxApp hosts key attachPid site) ids := by
  refine gains_bind (gains_registeringNone sound) fun appId => keeps_bind (keeps_trouble _) fun _ => ?_
  have mine : (.here,appId) ∈ own ++ [(Endpoint.here,appId)] := by simp
  refine keeps_bind (keeps_ifGiven (fun pid => ?_) _) fun _ => keeps_bind (keeps_trouble _) fun _ => ?_
  · exact keeps_bind (keeps_request (holding_lenient sound) rfl fun id same => by cases same; exact mine) fun _ => keeps_pure
  · exact gains_pure (by simp [ids])

end Constructors

section Reading
variable {hosts : Nat → Host}

theorem read_legible (legible : host.Legible)
    (done : (operations host registry).run .ReadStringMPIR (.readStringMPIR mpirId name) = .ok text) : text.1 ≠ [] := by
  change operations host registry .ReadStringMPIR (.readStringMPIR mpirId name) = _ at done
  have answered : ∃ registry', readStringMPIR host mpirId name registry = .ok text registry' := by
    unfold operations at done
    cases ended : operate host .ReadStringMPIR (.readStringMPIR mpirId name) registry with
    | ok given registry' => rw [ended] at done; cases done; exact ⟨registry',ended⟩
    | error what registry' => rw [ended] at done; cases done
  obtain ⟨registry',ended⟩ := answered
  rw [readStringMPIR,get_after] at ended
  cases found : registry.mpirMap.find mpirId with
  | none => rw [found] at ended; cases ended
  | some instance' =>
    rw [found] at ended
    exact legible instance' name text (attempt_ok.mp ended).1

theorem remoteReadString_legible (legible : ∀ n, (hosts n).Legible)
    (done : remoteReadStringMPIR hosts app remote mpirId name frontend = .ok text frontend') : text ≠ [] := by
  obtain ⟨outcome,_,asked,read⟩ := bind_ok.mp done
  cases asked
  obtain ⟨value,_,seen,last⟩ := bind_ok.mp read
  cases last
  cases answered : (operations (hosts frontend.sent.length) (frontend.daemons (.there remote)).registry).run .ReadStringMPIR
      (.readStringMPIR mpirId name.1) with
  | ok given =>
    rw [answered] at seen
    cases seen
    exact read_legible (legible _) answered
  | error message => rw [answered] at seen; cases seen

end Reading

-- What is asked of a launch: whoever runs through a proxy has texts to read on the
-- other side and no wrapper, and aprun is not known to the daemon yet.
def Launching.Meets (hosts : Nat → Host) (frontend : Frontend) : Launching → Prop
  | .eproxy _ site => site.wrapper = none ∧ ∀ n, (hosts n).Legible
  | .alps aprunPid _ _ => frontend.registry.Free aprunPid.1
  | _ => True

def Registering.Meets (frontend : Frontend) : Registering → Prop
  | .eproxy _ _ _ _ site => site.wrapper = none
  | .alps aprunPid _ => frontend.registry.Free aprunPid.1
  | _ => True

section Launches
variable {hosts : Nat → Host} {key : Nat} {own : List (Endpoint × Id)}

theorem gains_keptSession (endpoint : Endpoint) (releases : Keeps (Holding key) own (release newest)) (fresh : (endpoint,newest) ∈ own)
    (either : 0 ≤ mpirId.toInt → (endpoint,mpirId) ∈ own) :
    Gains (Holding key) own (keptSession release mpirId newest) (fun mpirId => [(endpoint,mpirId)]) := by
  unfold keptSession
  split
  · exact gains_pure (by simpa using fresh)
  · exact keeps_bind releases fun _ => gains_pure (by simpa using either (by omega))

theorem gains_sattachMPIR (endpoint : Endpoint) {launch : Launch → Work MPIRRead} {release : Id → Work Unit}
    (launches : ∀ own job, Gains (Holding key) own (launch job) fun result => [(endpoint,result.mpirId)])
    (releases : ∀ own mpirId, (endpoint,mpirId) ∈ own → Keeps (Holding key) own (release mpirId)) (jobs : List Launch)
    (result : MPIRRead) (either : 0 ≤ result.mpirId.toInt ∨ jobs = [] → (endpoint,result.mpirId) ∈ own) :
    Gains (Holding key) own (sattachMPIR launch release result jobs) (fun result => [(endpoint,result.mpirId)]) := by
  induction jobs generalizing own result with
  | nil => exact gains_pure (by simpa using either (.inr rfl))
  | cons job jobs ih =>
    refine gains_bind (launches own job) fun newest => ?_
    have fresh : (endpoint,newest.mpirId) ∈ own ++ [(endpoint,newest.mpirId)] := by simp
    refine gains_bind (gains_keptSession endpoint (releases _ _ fresh) fresh fun issued => ?_) fun mpirId => ih _ fun _ => ?_
    · exact mem_append_left _ (either (.inl issued))
    · simp

variable (sound : ∀ n, (hosts n).Sound)
include sound

theorem gains_sattachMPIRLocal :
    Gains (Holding key) own (sattachMPIRLocal hosts key (first :: others)) (fun result => [(.here,result.mpirId)]) := by
  refine gains_sattachMPIR .here (fun _ job => gains_launching sound job) (fun _ mpirId mine => ?_) _ noResult ?_
  · exact keeps_bind (keeps_aimed (holding_lenient sound) rfl rfl mine) fun _ => keeps_pure
  · rintro (issued | empty)
    · exact absurd issued (by decide)
    · cases empty

theorem gains_sattachMPIRRemote :
    Gains (Holding key) own (sattachMPIRRemote hosts key remote (first :: others)) (fun result => [(.there remote,result.mpirId)]) := by
  refine gains_sattachMPIR (.there remote) (fun _ job => gains_remoteLaunch sound remote job) (fun _ _ => keeps_remoteRelease (holding_lenient sound)) _
    noResult ?_
  rintro (issued | empty)
  · exact absurd issued (by decide)
  · cases empty

theorem gains_launchRemotely {remote : Nat} {launch : Launch} :
    Gains (Holding key) own (launchRemotely hosts key remote launch) (fun job => [(.there remote,job.mpirId)]) := by
  refine gains_bind (gains_remoteLaunch sound remote launch) fun result => ?_
  have mine : (.there remote,result.mpirId) ∈ own ++ [(Endpoint.there remote,result.mpirId)] := by simp
  refine keeps_bind (keeps_remoteReadString (holding_lenient sound) mine) fun _ => keeps_bind (keeps_remoteReadString (holding_lenient sound) mine) fun _ => ?_
  exact gains_pure (by simp)

omit sound in
theorem unwinding_ok (done : unwinding clean act frontend = .ok value frontend') : act frontend = .ok value frontend' := by
  cases ended : act frontend with
  | ok given middle =>
    rwa [unwinding,catch_ok ended] at done
  | error failure middle =>
    rw [unwinding,catch_error ended] at done
    obtain ⟨_,_,_,wrong⟩ := bind_ok.mp done
    cases wrong

omit sound in
theorem launchRemotely_legible {launch : Launch} (legible : ∀ n, (hosts n).Legible) {frontend frontend' : Frontend} {job : RemoteJob}
    (done : launchRemotely hosts key remote launch frontend = .ok job frontend') : job.jobId ≠ [] ∧ job.stepId ≠ [] := by
  obtain ⟨result,_,_,rest⟩ := bind_ok.mp done
  obtain ⟨jobId,_,first,rest⟩ := bind_ok.mp rest
  obtain ⟨stepId,_,second,last⟩ := bind_ok.mp rest
  cases last
  exact ⟨remoteReadString_legible legible first,remoteReadString_legible legible second⟩

theorem gains_launchEproxy {launch : Launch} {site : Site} (bare : site.wrapper = none) (legible : ∀ n, (hosts n).Legible) :
    Gains (Holding key) own (launchEproxy hosts key launch site) ids := by
  refine keeps_bind keeps_startRemoteDaemon fun remote frontend holding => ?_
  refine from_bind
    (gains_unwinding (gains_launchRemotely sound) (keeps_stopRemote (holding_lenient sound) remote) frontend holding)
    fun job frontend' done more => ?_
  obtain ⟨jobId,stepId⟩ := launchRemotely_legible legible (unwinding_ok done)
  exact gains_newEproxySLURMApp sound (by simp) jobId stepId bare frontend' more

theorem gains_registerEproxy (bare : site.wrapper = none) :
    Gains (Holding key) own (registerEproxy hosts key jobId stepId (first :: others) site) ids := by
  refine keeps_bind keeps_startRemoteDaemon fun remote => ?_
  refine gains_bind (gains_unwinding (gains_sattachMPIRRemote sound) (keeps_stopRemote (holding_lenient sound) remote)) fun result => ?_
  exact gains_newEproxySLURMApp sound (by simp) (decimal_ne jobId) (decimal_ne stepId) bare

theorem gains_registerRemoteJob : Gains (Holding key) own (registerRemoteJob hosts key launcherName launcherPid ours site) ids := by
  refine keeps_bind keeps_startRemoteDaemon fun remote => ?_
  refine keeps_bind (gains_kept (gains_result sound (.there remote) .AttachMPIR rfl (fun _ wrong => by cases wrong) rfl
    (gains_seenMPIR (.there remote)))) fun _ => keeps_bind (keeps_stopRemote (holding_lenient sound) remote) fun _ => ?_
  refine gains_bind (gains_registering sound (Int.le_of_lt ours.2)) fun appId => ?_
  exact gains_newGenericSSHApp (subset_append_right _ _)

theorem from_launchAprun (free : frontend.registry.Free aprunPid.1) (holding : Holding key own frontend) :
    GainsFrom (Holding key) own (launchAprun hosts key aprunPid wrapper site) ids frontend := by
  unfold launchAprun
  cases site.settled with
  | some failure => exact holding
  | none =>
    change GainsFrom (Holding key) own (requestRegisterApp hosts (some key) aprunPid.1 >>= _) ids frontend
    refine from_bind (from_registering sound free (Int.le_of_lt aprunPid.2) holding) fun appId frontend' _ more => ?_
    have mine : (.here,appId) ∈ own ++ [(Endpoint.here,appId)] := by simp
    have rest : Gains (Holding key) (own ++ [(Endpoint.here,appId)]) (do
        ifGiven wrapper fun pid => do let _ ← request hosts (some key) (.registerUtil appId pid.1)
        trouble site.finished
        return ⟨.ALPS,appId,0,0,false,false⟩) ids := by
      refine keeps_bind (keeps_ifGiven (fun pid => ?_) _) fun _ => keeps_bind (keeps_trouble _) fun _ => ?_
      · exact keeps_bind (keeps_request (holding_lenient sound) rfl fun id same => by cases same; exact mine) fun _ => keeps_pure
      · exact gains_pure (by simp [ids])
    exact rest frontend' more

theorem gains_launchPALS {launch : Launch} {mkdir : Utility} {site : Site} :
    Gains (Holding key) own (launchPALS hosts key launch mkdir site) ids := by
  refine gains_bind (gains_launching sound launch) fun result => ?_
  have mine : (.here,result.mpirId) ∈ own ++ [(Endpoint.here,result.mpirId)] := by simp
  exact keeps_bind (keeps_readString (holding_lenient sound) mine) fun _ => gains_newPALSApp sound mine

omit sound in
theorem gains_newLocalhostApp : Gains (Holding key) own (newLocalhostApp site) Application.ids :=
  keeps_bind (keeps_trouble _) fun _ => gains_pure (nil_subset _)

omit sound in
theorem known_subset {endpoint : Endpoint} {id : Id} : known endpoint id ⊆ own ++ [(endpoint,id)] := by
  unfold known
  split <;> simp

omit sound in
theorem slurm_ids (mine : (.here,mpirId) ∈ own) : ids ⟨slurmKind hpcm,mpirId,0,0,false,false⟩ ⊆ own := by
  cases hpcm <;> simpa [slurmKind,ids] using mine

theorem from_launching {launching : Launching} (meets : launching.Meets hosts frontend)
    (holding : Holding key own frontend) : GainsFrom (Holding key) own (launching.application hosts key) ids frontend := by
  cases launching with
  | slurm hpcm started site =>
    refine gains_bind (gains_srunMPIR sound) (fun result => ?_) frontend holding
    exact gains_newSLURMApp (holding_lenient sound) _ (by simp) _ _ site (slurm_ids (by simp))
  | eproxy launch site => exact gains_launchEproxy sound meets.1 meets.2 frontend holding
  | ssh shim launch site => exact gains_bind (gains_launchUnder sound) (fun result => gains_newGenericSSHApp known_subset) frontend holding
  | alps aprunPid wrapper site => exact from_launchAprun sound meets holding
  | pals launch mkdir site => exact gains_launchPALS sound frontend holding
  | flux attachPid site => exact gains_newFluxApp sound frontend holding
  | localhost site => exact gains_newLocalhostApp frontend holding

theorem from_registered {registering : Registering} (meets : registering.Meets frontend)
    (holding : Holding key own frontend) : GainsFrom (Holding key) own (registering.application hosts key) ids frontend := by
  cases registering with
  | slurm hpcm first others site =>
    refine gains_bind (gains_sattachMPIRLocal sound) (fun result => ?_) frontend holding
    exact gains_newSLURMApp (holding_lenient sound) _ (by simp) _ _ site (slurm_ids (by simp))
  | eproxy jobId stepId first others site => exact gains_registerEproxy sound meets frontend holding
  | ssh launcherPath launcherPid site =>
    exact gains_bind (gains_attaching sound launcherPath launcherPid)
      (fun result => gains_newGenericSSHApp known_subset) frontend holding
  | sshRemote launcherName launcherPid ours site => exact gains_registerRemoteJob sound frontend holding
  | alps aprunPid site => exact from_launchAprun sound meets holding
  | pals mkdir site => exact gains_bind (gains_registeringNone sound) (fun appId => gains_newPALSApp sound (by simp)) frontend holding
  | flux site => exact gains_newFluxApp sound frontend holding
  | localhost site => exact gains_newLocalhostApp frontend holding

end Launches

end CommonTools.Applications
