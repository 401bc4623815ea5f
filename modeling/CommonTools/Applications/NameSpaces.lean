import CommonTools.Applications.Conduct

namespace CommonTools.FeDaemon
open OrderedMaps Programs Registry

structure Registry.Alike (registry registry' : Registry) (appId : Id) : Prop where
  app : registry'.idPidMap.find appId = registry.idPidMap.find appId
  utils : registry'.utilMap.find appId = registry.utilMap.find appId
  mpir : registry'.mpirMap.find appId = registry.mpirMap.find appId
  launcher : ∀ pid, registry.idPidMap.find appId = some pid → pid ≠ 0 →
    registry'.pidIdMap.find pid = registry.pidIdMap.find pid ∧ registry'.appCleanupList.find pid = registry.appCleanupList.find pid

section Release
variable {registry : Registry}

theorem release_untracked (consistent : registry.Consistent) (known : registry.idPidMap.find appId = some pid) (nonzero : pid ≠ 0)
    (stranger : ∀ other, ¬ registry.HasUtil other pid) (uncontrolled : ¬ registry.Controls pid) :
    ¬ (registry.release appId pid).Tracks pid := by
  have erased := erased_release registry appId pid
  have positive : 0 < pid.toInt := by
    have nonNegative := consistent.nonNegative appId pid known
    have other : pid.toInt ≠ 0 := fun zero => nonzero (BitVec.eq_of_toInt_eq zero)
    omega
  rintro ((app | listed | ⟨other,util⟩) | controlled)
  · exact ((erased.apps pid).mp app).2 ⟨rfl,positive⟩
  · exact ((erased.list pid).mp listed).1 rfl
  · exact stranger other ((erased.utils other pid).mp util).2
  · exact uncontrolled controlled

theorem release_alike (consistent : registry.Consistent) (known : registry.idPidMap.find appId = some pid) (apart : other ≠ appId) :
    registry.Alike (registry.release appId pid) other := by
  refine ⟨by simp [release,eraseApp,eraseUtils,apart],
    by simp [release,eraseApp,eraseUtils,apart],rfl,fun pid' found nonzero => ?_⟩
  have different : pid' ≠ pid := by
    intro same
    subst same
    have one := (consistent.inverse pid' appId nonzero).mpr known
    have two := (consistent.inverse pid' other nonzero).mpr found
    exact apart (Option.some.inj (two.symm.trans one))
  refine ⟨?_,by simp [release,eraseUtils,different]⟩
  simp only [release,eraseUtils,eraseApp]
  split
  · simp [different]
  · rfl

end Release

end CommonTools.FeDaemon

namespace CommonTools.Applications
open FeDaemon OrderedMaps Programs Credentials List Frontend Registry
open Interface (Handle Handles HandlesM FrontendClass)

section Ending
variable {hosts : Nat → Host}

theorem fine_stopped : Keeps Fine [] (modify (·.stopped) : Work PUnit) := by
  refine fine_modify (fun frontend few kept => ?_) fun frontend few => by simpa [Frontend.Few,stopped] using few
  have registry' : frontend.stopped.registry = frontend.registry.shutdown := by simp [stopped,registry]
  have issued : (frontend.stopped.daemons .here).issued = (frontend.daemons .here).issued := by simp [stopped]
  refine ⟨kept.proper,?_,?_,?_,kept.owned,?_,?_⟩
  · refine ⟨?_,by rw [issued]; exact kept.numbered.issued,fun appId known => ?_⟩
    · simpa [stopped,shutdown,registry] using kept.numbered.last
    · refine kept.numbered.registered appId ?_
      simpa [stopped,shutdown,registry,Registry.Registered] using known
  · rw [registry']
    refine ⟨kept.tables.inverse,kept.tables.nonNegative,fun _ filed => ?_,fun _ listed => ?_⟩
    · simp [shutdown] at filed
    · simp [shutdown] at listed
  · exact kept.issues
  · intro pid gone
    rw [registry']
    rintro ((app | listed | ⟨appId,util⟩) | controlled)
    · exact kept.released pid gone (.inl (.inl app))
    · simp [Registry.Listed,shutdown] at listed
    · simp [Registry.HasUtil,utilsOf,shutdown] at util
    · exact kept.released pid gone (.inr controlled)
  · have quiet := within_nil fun pid signalled gone => kept.released pid gone (.inl (.inr (shutdown_mem.mp signalled)))
    simp [stopped,kept.unstruck,quiet]

variable (sound : ∀ n, (hosts n).Sound)
include sound

theorem fine_shutdown : Keeps Fine [] (quietly (request hosts none .shutdown)) := by
  have asked : Keeps Fine [] (ask hosts none .here .Shutdown .shutdown) := by
    intro frontend fine few'
    have few : frontend.Few := few_served .here few'
    exact kept_served (fine few) few (sound _) (fun _ wrong => by cases wrong) fun _ wrong => by cases wrong
  exact keeps_quietly (keeps_bind asked fun _ => gains_raised fun _ _ => nil_subset _)

theorem fine_destroy : Keeps Fine [] (destroy hosts cleanups palscmd) := by
  refine keeps_bind gains_get fun frontend => ?_
  refine keeps_bind (keeps_forM fun key _ => fine_keeps key (keeps_cleanups sound)) fun _ => ?_
  refine keeps_bind (keeps_forM fun key _ => fine_keeps key (keeps_quietly ?_)) fun _ => ?_
  · refine gains_bind gains_object fun app => keeps_bind keeps_withoutApp fun _ => ?_
    exact keeps_destructApp sound (subset_append_right _ _)
  · exact keeps_bind (fine_shutdown sound) fun _ => fine_stopped

omit sound in
theorem fine_advance (endpoint : Endpoint) (happening : Happening) (quiet : ∀ daemon : Daemon, (daemon.next happening).issued = daemon.issued)
    (proper : ∀ daemon, happening.Proper daemon) : Keeps Fine [] (modify (·.advance endpoint happening) : Work PUnit) := by
  refine fine_modify (fun frontend few kept => ?_) fun frontend => few_advance
  refine ⟨kept.proper,?_,?_,?_,kept.owned,fun pid => released_advance kept,unstruck_advance kept⟩
  · cases endpoint with
    | here => rw [advance_here]; exact numbered_next kept.numbered happening
    | there remote => rw [advance_there]; exact kept.numbered
  · cases endpoint with
    | here => rw [registry,advance_here]; exact consistent_next kept.tables kept.numbered few (proper _)
    | there remote => rw [registry,advance_there]; exact kept.tables
  · cases endpoint with
    | here => rw [advance_here,quiet]; exact kept.issues
    | there remote => rw [advance_there]; exact kept.issues

end Ending

-- The client's id is the daemon's, and nothing but its registration leads to the launcher.
def Frontend.ReleasedAs (frontend : Frontend) (appId : Handle) : Prop :=
  ∃ key app, frontend.owner appId = some key ∧ frontend.apps.find key = some app ∧ app.kind ≠ .EproxySLURM ∧ app.kind ≠ .Localhost ∧
    appId.setWidth 32 = app.daemonAppId ∧
    ∀ pid ∈ frontend.launcher (some key), (∀ other, ¬ frontend.registry.HasUtil other pid) ∧ ¬ frontend.registry.Controls pid

structure Frontend.LetGo (frontend frontend' : Frontend) (appId : Handle) : Prop where
  forgotten : ∀ key app, frontend.owner appId = some key → frontend.apps.find key = some app →
    ¬ frontend'.registry.Registered app.daemonAppId
  launcher : ∀ pid ∈ frontend.launcher (frontend.owner appId), pid ∈ frontend'.released ∧ ¬ frontend'.registry.Tracks pid
  others : ∀ key id, frontend.owner appId ≠ some key → ⟨some key,.here,id⟩ ∈ frontend.issued →
    frontend.registry.Alike frontend'.registry id
  remote : ∀ n, frontend'.daemons (.there n) = frontend.daemons (.there n)

section Releasing
variable {hosts : Nat → Host} {frontend frontend' : Frontend} {appId : Handle}

theorem issued_once {id : Id} (kept : frontend.Kept) (few : frontend.Few) (one : ⟨some key,.here,id⟩ ∈ frontend.issued)
    (two : ⟨some other,.here,id⟩ ∈ frontend.issued) : key = other := by
  have distinct : ((frontend.issued.filter fun issue => issue.endpoint = .here).map Issue.id).Nodup := by
    rw [kept.issues]
    have increasing := (increasing_exact kept.numbered).mpr few
    exact increasing.imp fun less same => by rw [same] at less; exact absurd less (Int.lt_irrefl _)
  have same := inj_on_of_nodup_map distinct (mem_filter.mpr ⟨one,by simp⟩) (mem_filter.mpr ⟨two,by simp⟩) rfl
  cases same
  rfl

theorem request_release {id : Id} (done : request hosts app (.releaseApp id) frontend = .ok value frontend') :
    ∃ pid, frontend.registry.idPidMap.find id = some pid ∧
      frontend' = frontend.served (hosts frontend.sent.length) app .here (.releaseApp id) ∧
      frontend'.registry = frontend.registry.release id pid := by
  obtain ⟨outcome,_,asked,read⟩ := bind_ok.mp done
  cases asked
  have registry' := after_releaseAppID id frontend.registry
  cases found : frontend.registry.idPidMap.find id with
  | none =>
    have failed : operations (hosts frontend.sent.length) frontend.registry .ReleaseApp (.releaseApp id) =
        .error (cstr (invalidAppId id)) := by
      have thrown : operate (hosts frontend.sent.length) .ReleaseApp (.releaseApp id) frontend.registry =
          .error (invalidAppId id) frontend.registry := by
        refine bind_stopped ?_
        rw [releaseAppID,get_after,found]
        rfl
      rw [operations,thrown]
    change raised (verified .done (operations (hosts frontend.sent.length) frontend.registry .ReleaseApp (.releaseApp id))) _ = _ at read
    rw [failed] at read
    cases read
  | some pid =>
    have same : frontend' = frontend.served (hosts frontend.sent.length) app .here (.releaseApp id) := by
      change raised (verified .done _) _ = _ at read
      unfold verified at read
      split at read
      · cases read; rfl
      · cases read
    refine ⟨pid,rfl,same,?_⟩
    rw [same]
    rw [found] at registry'
    exact after_map.trans registry'

theorem releaseApp_eq : releaseApp hosts appId frontend =
    (request hosts (frontend.owner appId) (.releaseApp (appId.setWidth 32)) >>= fun _ =>
      (modify fun middle => (middle.forgetApp appId).letGo (frontend.launcher (frontend.owner appId)).toList : Work Unit)) frontend := rfl

theorem releaseApp_ok (done : releaseApp hosts appId frontend = .ok value frontend') :
    ∃ pid middle, frontend.registry.idPidMap.find (appId.setWidth 32) = some pid ∧
      middle = frontend.served (hosts frontend.sent.length) (frontend.owner appId) .here (.releaseApp (appId.setWidth 32)) ∧
      middle.registry = frontend.registry.release (appId.setWidth 32) pid ∧
      frontend' = (middle.forgetApp appId).letGo (frontend.launcher (frontend.owner appId)).toList := by
  rw [releaseApp_eq] at done
  obtain ⟨_,middle,requested,last⟩ := bind_ok.mp done
  obtain ⟨pid,found,served,registry'⟩ := request_release requested
  cases last
  exact ⟨pid,middle,found,served,registry',rfl⟩

theorem releaseApp_letsGo (kept : frontend.Kept) (few : frontend.Few) (meets : frontend.ReleasedAs appId)
    (done : releaseApp hosts appId frontend = .ok value frontend') : frontend.LetGo frontend' appId := by
  obtain ⟨key,app,owned,found,_,notLocal,same,apart⟩ := meets
  obtain ⟨pid,middle,known,served,registry',rfl⟩ := releaseApp_ok done
  rw [same] at known registry' served
  have issued := kept.owned key app found _ (ids_here (List.Subset.refl _) notLocal)
  have released : ((middle.forgetApp appId).letGo (frontend.launcher (frontend.owner appId)).toList).registry =
      frontend.registry.release app.daemonAppId pid := registry'
  have launched : frontend.launcher (some key) = (some pid).filter (· ≠ 0) := by
    simp only [launcher,Option.bind_eq_bind,Option.bind_some,found,known]
  rw [owned] at released ⊢
  refine ⟨fun other object owner there => ?_,fun launcher mine => ?_,fun other id stranger theirs => ?_,fun n => ?_⟩
  · cases owned.symm.trans owner
    cases found.symm.trans there
    rw [released,Registry.Registered]
    simp [release,eraseApp,eraseUtils]
  · rw [owned] at mine
    rw [released]
    obtain ⟨strange,uncontrolled⟩ := apart launcher mine
    have here := mine
    rw [launched] at here
    obtain ⟨same,nonzero⟩ := Option.filter_eq_some_iff.mp here
    cases same
    refine ⟨mem_append_right _ (Option.mem_toList.mpr mine),?_⟩
    exact release_untracked kept.tables known (by simpa using nonzero) strange uncontrolled
  · rw [released]
    refine release_alike kept.tables known fun equal => stranger ?_
    rw [owned,issued_once kept few issued (equal ▸ theirs)]
  · rw [served]
    simp [Frontend.letGo,Frontend.forgetApp,Frontend.served,Frontend.advance]

theorem fine_releaseApp (sound : ∀ n, (hosts n).Sound) (meets : frontend.ReleasedAs appId) (fine : Fine [] frontend) :
    GainsFrom Fine [] (releaseApp hosts appId) (fun _ => []) frontend := by
  have asked : GainsFrom Fine [] (request hosts (frontend.owner appId) (.releaseApp (appId.setWidth 32))) (fun _ => []) frontend := by
    obtain ⟨key,app,owned,found,_,notLocal,same,_⟩ := meets
    rw [owned,same]
    refine fine_from key (from_less (nil_subset app.ids) ?_)
    refine gains_kept (gains_request sound (fun _ wrong => by cases wrong) fun id aimed => ?_) frontend fun few =>
      ⟨fine few,fun pair mine => (fine few).owned key app found pair mine⟩
    cases aimed
    exact ids_here (List.Subset.refl _) notLocal
  unfold GainsFrom Ends
  rw [releaseApp_eq]
  refine from_bind asked fun value middle requested kept few' => ?_
  have served := (request_release requested).choose_spec.2.1
  have few : frontend.Few := few_advance (served ▸ few')
  have letsGo := releaseApp_letsGo (fine few) few meets (releaseApp_eq.trans (bind_after requested))
  refine {kept few' with released := fun pid gone => ?_}
  rcases mem_append.mp gone with old | new
  · exact (kept few').released pid old
  · exact (letsGo.launcher pid (Option.mem_toList.mp new)).2

end Releasing

-- Where the three kinds of ids do not get into each other's way.
def Call.Meets (hosts : Nat → Host) (frontend : Frontend) : Call → Prop
  | .launchApp launching _ => launching.Meets hosts frontend
  | .launchAppBarrier launching => launching.Meets hosts frontend
  | .registerApp registering => registering.Meets frontend
  | .appIsValid appId _ _ _ => frontend.CheckedAs appId
  | .releaseApp appId => frontend.ReleasedAs appId
  | _ => True

structure Frontend.Separate (hosts : Nat → Host) (frontend : Frontend) : Prop where
  proper : ∀ sent ∈ frontend.sent, sent.Proper
  untracked : ∀ pid ∈ frontend.released, ¬ frontend.registry.Tracks pid
  unsignalled : frontend.struck = []
  releases : ∀ appId frontend', frontend.ReleasedAs appId → releaseApp hosts appId frontend = .ok () frontend' →
    frontend.LetGo frontend' appId

section Runs
variable {hosts : Nat → Host} {frontend : Frontend}

theorem fine_perform (sound : ∀ n, (hosts n).Sound) {call : Call} (meets : call.Meets hosts frontend) (fine : Fine [] frontend) :
    GainsFrom Fine [] (call.perform hosts) (fun _ => []) frontend := by
  have dropped : ∀ {α : Type} {act : Work α}, GainsFrom Fine [] act (fun _ => []) frontend →
      GainsFrom Fine [] (do let _ ← act) (fun _ => []) frontend :=
    fun gains => from_bind gains fun _ _ _ more => gains_pure (nil_subset _) _ more
  cases call with
  | launchApp launching palscmd => exact dropped (fine_launchApp sound meets fine)
  | launchAppBarrier launching => exact dropped (fine_launchAppBarrier sound meets fine)
  | registerApp registering => exact dropped (fine_registerApp sound meets fine)
  | getSrunInfo launcherPath srunPid => exact fine_getSrunInfo sound frontend fine
  | getApid launcherPath launcherPid => exact fine_getApid sound frontend fine
  | appIsValid appId reported cleanups palscmd => exact dropped (fine_appIsValid sound meets fine)
  | deregisterApp appId cleanups palscmd => exact keeps_bind fine_getApp (fun key => fine_keeps key (keeps_removeApp sound)) frontend fine
  | releaseApp appId => exact fine_releaseApp sound meets fine
  | useApp appId operation => exact keeps_bind fine_getApp (fun key => fine_keeps key (keeps_perform sound)) frontend fine
  | useSession key operation => exact fine_keeps key (keeps_perform sound) frontend fine
  | child endpoint code pid =>
    refine fine_advance endpoint (.child code pid) (fun daemon => ?_) (fun _ => trivial) frontend fine
    obtain ⟨more,handled⟩ := handler_effect
    rw [Daemon.next,handled]
  | removed endpoint appId =>
    refine fine_advance endpoint (.removed appId) (fun daemon => ?_) (fun _ => trivial) frontend fine
    rw [Daemon.next,Daemon.remove]
    split <;> rfl
  | destroy cleanups palscmd => exact fine_destroy sound frontend fine

theorem kept_start : Frontend.start.Kept := by
  refine ⟨fun _ wrong => ?_,numbered_start,consistent_start,rfl,fun _ _ wrong => ?_,fun _ wrong => ?_,rfl⟩ <;> cases wrong

theorem name_spaces_separate (sound : ∀ n, (hosts n).Sound) {calls : List Call}
    (path : Reached (fun frontend call => call.Meets hosts frontend) (next hosts) start calls frontend)
    (few : frontend.Few) : frontend.Separate hosts := by
  have fine : Fine [] frontend :=
    reached_invariant (fun _ => kept_start) (fun _ _ fine meets => next_keeps fine (keeps_after (fine_perform sound meets fine))) path
  have kept := fine few
  exact ⟨kept.proper,kept.released,kept.unstruck,fun _ _ meets done => releaseApp_letsGo kept few meets done⟩

end Runs

def numberText : CStr := ⟨ascii "31",by decide⟩

def nodeName : CStr := ⟨ascii "nid1",by decide⟩

def busyHosts (n : Nat) : Host :=
  let pid : Pid := BitVec.ofNat 32 (n % 1000 + 100)
  {bareHost with
    findPath := some
    start := fun _ _ => .ok ⟨pid⟩
    runToMPIRBreakpoint := fun _ => .ok ()
    attach := fun _ _ => .ok ⟨pid⟩
    readStringAt := fun _ _ => .ok numberText
    getProctable := fun _ => .ok [⟨pid,nodeName,nodeName⟩]}

theorem busyPid_positive : 0 < (BitVec.ofNat 32 (n % 1000 + 100) : Pid).toInt := by
  rw [BitVec.toInt_eq_toNat_of_lt]
  · simp; omega
  · simp; omega

theorem busyHosts_sound (n : Nat) : (busyHosts n).Sound := by
  refine ⟨fun _ _ instance' started => ?_,fun _ _ instance' attached => ?_⟩
  · cases started; exact busyPid_positive
  · cases attached; exact busyPid_positive

def launcherName : CStr := ⟨ascii "mpiexec",by decide⟩

def srun : Launch := ⟨launcherName,[],-1,-1,-1,none⟩

def plainSite : Site := ⟨none,none,none⟩

def job : Call := .launchApp (.ssh none srun plainSite) srun

def farewell : Call := .destroy (fun _ => []) fun _ => srun

-- A job that is released while it runs, and the end of the library.
def handover : List Call := [job,.releaseApp 1,farewell]

-- A look at another launcher before takes an id of the daemon, but none of the client's.
def shifted : List Call := [.getApid launcherName 50,job,.releaseApp 1,farewell]

-- A remote daemon begins with 1, when the local one is at 2 already.
def proxied : List Call :=
  [.launchAppBarrier (.flux none plainSite),.launchAppBarrier (.eproxy srun plainSite),.appIsValid 2 (.ok true) [] srun]

theorem name_spaces_separate_handover : (handover.foldl (next busyHosts) start).Separate busyHosts ∧
      (handover.foldl (next busyHosts) start).released = [100] := by
  refine ⟨name_spaces_separate busyHosts_sound (reached_run ⟨trivial,?_,trivial,trivial⟩) (by unfold Frontend.Few; decide),by decide⟩
  refine ⟨0,⟨.GenericSSH,1,0,0,false,false⟩,by decide,by decide,by decide,by decide,by decide,fun pid _ => ⟨fun other util => ?_,?_⟩⟩
  · cases util
  · rintro ⟨mpirId,instance',found,_⟩
    cases found

theorem improper_mixed {frontend : Frontend} (improper : ∃ sent ∈ frontend.sent, ¬ sent.Proper) : ¬ frontend.Separate hosts := by
  intro separate
  obtain ⟨sent,inside,wrong⟩ := improper
  exact wrong (separate.proper sent inside)

theorem name_spaces_mixed : ¬ (shifted.foldl (next busyHosts) start).Separate busyHosts ∧
      (shifted.foldl (next busyHosts) start).struck = [103] ∧ ¬ (proxied.foldl (next busyHosts) start).Separate busyHosts :=
  ⟨improper_mixed (by decide),by decide,improper_mixed (by decide)⟩

end CommonTools.Applications
