import CommonTools.Applications.Acquisition

namespace CommonTools.Applications
open FeDaemon OrderedMaps Programs Credentials List
open Interface (Handle Handles HandlesM FrontendClass)

def Fine (_ : List Unit) (frontend : Frontend) : Prop := frontend.Few → frontend.Kept

instance weakensFine : Weakens Fine := ⟨fun _ _ _ _ fine => fine⟩

section Between
variable {frontend : Frontend} (key : Nat)

theorem holding_nothing : Holding key [] frontend ↔ Fine [] frontend := by
  constructor
  · intro holding few
    exact (holding few).1
  · intro fine few
    exact ⟨fine few,nofun⟩

theorem fine_from (gains : GainsFrom (Holding key) [] act (fun _ => []) frontend) : GainsFrom Fine [] act (fun _ => []) frontend :=
  from_of (fun _ _ done => (holding_nothing key).mp (from_ok gains done)) fun _ _ failed => (holding_nothing key).mp (from_error gains failed)

theorem fine_keeps (keeps : Keeps (Holding key) [] act) : Keeps Fine [] act :=
  fun frontend fine => fine_from key (keeps frontend ((holding_nothing key).mpr fine))

theorem fine_modify (keeps : ∀ frontend, frontend.Few → frontend.Kept → (update frontend).Kept)
    (few : ∀ frontend, (update frontend).Few → frontend.Few) : Keeps Fine [] (modify update : Work PUnit) :=
  gains_modify fun frontend fine small => keeps frontend (few frontend small) (fine (few frontend small))

end Between

section Tables
variable {key : Nat} {own : List (Endpoint × Id)}

theorem ends_onHandles (kept : ∀ handles, P {frontend with handles := handles}) : Ends (onHandles act) frontend (fun _ => P) P := by
  unfold Ends onHandles
  cases act frontend.alive frontend.handles <;> exact kept _

theorem keeps_onHandles : Keeps (Holding key) own (onHandles act) := by
  intro frontend holding
  simp only [GainsFrom,append_nil]
  refine ends_onHandles (fun handles few => ?_)
  obtain ⟨kept,issued⟩ := holding few
  exact ⟨{kept with},issued⟩

theorem keeps_newObject : Keeps (Holding key) own newObject := by
  intro frontend holding
  change Holding key (own ++ []) {frontend with made := frontend.made + 1}
  rw [append_nil]
  intro few
  obtain ⟨kept,issued⟩ := holding few
  exact ⟨{kept with},issued⟩

theorem fine_newObject : Keeps Fine [] newObject := fine_keeps 0 keeps_newObject

theorem object_found (found : frontend.apps.find key = some app) : object key frontend = .ok app frontend := by
  rw [object,get_after,found]
  rfl

theorem object_missing (missing : frontend.apps.find key = none) :
    object key frontend = .error (.text "Owning app is no longer valid.") frontend := by
  rw [object,get_after,missing]
  rfl

theorem gains_object : Gains (Holding key) own (object key) Application.ids := by
  intro frontend holding
  cases found : frontend.apps.find key with
  | none =>
    rw [GainsFrom,Ends,object_missing found]
    exact holding
  | some app =>
    rw [GainsFrom,Ends,object_found found]
    intro few
    obtain ⟨kept,issued⟩ := holding few
    refine ⟨kept,fun pair inside => ?_⟩
    rcases mem_append.mp inside with old | new
    · exact issued pair old
    · exact kept.owned key app found pair new

theorem keeps_withApp (mine : app.ids ⊆ own) : Keeps (Holding key) own (modify (·.withApp key app) : Work PUnit) := by
  refine gains_modify fun frontend holding few => ?_
  obtain ⟨kept,issued⟩ := holding few
  refine ⟨{kept with owned := ?_},issued⟩
  intro other object found pair inside
  simp only [Frontend.withApp,OrderedMap.find_insert] at found
  split at found
  · rename_i same
    cases found
    rw [same]
    exact issued pair (mine inside)
  · exact kept.owned other object found pair inside

theorem keeps_withoutApp : Keeps (Holding key) own (modify (·.withoutApp other) : Work PUnit) := by
  refine gains_modify fun frontend holding few => ?_
  obtain ⟨kept,issued⟩ := holding few
  refine ⟨{kept with owned := ?_},issued⟩
  intro owner object found pair inside
  simp only [Frontend.withoutApp,OrderedMap.find_erase] at found
  split at found
  · cases found
  · exact kept.owned owner object found pair inside

theorem keeps_forgetApp : Keeps (Holding key) own (modify (·.forgetApp appId) : Work PUnit) := by
  refine gains_modify fun frontend holding few => ?_
  obtain ⟨kept,issued⟩ := holding few
  exact ⟨{kept with},issued⟩

end Tables

section Calls
variable {hosts : Nat → Host} {key : Nat} {own : List (Endpoint × Id)} {frontend : Frontend} (sound : ∀ n, (hosts n).Sound)
include sound

theorem keeps_perform {operation : Operation} : Keeps (Holding key) own (operation.perform hosts key) := by
  refine gains_bind gains_object fun app => ?_
  have mine : app.ids ⊆ own ++ app.ids := subset_append_right _ _
  cases operation with
  | shipPackage package => exact keeps_shipPackage (holding_lenient sound) mine
  | startDaemon start => exact keeps_startDaemon sound mine
  | checkFilesExist start => exact keeps_checkFilesExist (holding_lenient sound) mine
  | kill utility checkScancelOutput sent => exact keeps_kill (holding_lenient sound) mine
  | releaseBarrier done => exact keeps_releaseBarrier (holding_lenient sound) mine

theorem keeps_cleanups {cleanups : List Operation} : Keeps (Holding key) own (quietly (cleanups.forM (Operation.perform hosts key))) :=
  keeps_quietly (keeps_forM fun operation _ => keeps_perform sound)

theorem from_launch (meets : launching.Meets hosts frontend) (holding : Holding key own frontend) :
    GainsFrom (Holding key) own (launch hosts key launching palscmd) (fun _ => []) frontend := by
  refine from_bind (from_launching sound meets holding) fun app frontend' _ more => ?_
  have mine : app.ids ⊆ own ++ app.ids := subset_append_right _ _
  cases kind : app.kind with
  | EproxySLURM =>
    exact keeps_bind (keeps_releaseBarrier (holding_lenient sound) mine) (fun _ => keeps_destructApp sound mine) frontend' more
  | SLURM | HPCMSLURM | GenericSSH | PALS =>
    exact keeps_bind (gains_unwinding (keeps_releaseBarrier (holding_lenient sound) mine) (keeps_destructApp sound mine))
      (fun _ => keeps_withApp (show app.pastBarrier.ids ⊆ _ from mine)) frontend' more
  | ALPS | Flux | Localhost => exact keeps_withApp mine frontend' more

theorem keeps_removeApp : Keeps (Holding key) own (removeApp hosts appId key cleanups palscmd) := by
  refine keeps_bind (keeps_cleanups sound) fun _ => gains_bind gains_object fun app => ?_
  refine keeps_bind keeps_withoutApp fun _ => keeps_bind keeps_forgetApp fun _ => ?_
  exact keeps_destructApp sound (subset_append_right _ _)

theorem fine_launchApp (meets : launching.Meets hosts frontend) (fine : Fine [] frontend) :
    GainsFrom Fine [] (launchApp hosts launching palscmd) (fun _ => []) frontend := by
  refine from_bind (fine_newObject frontend fine) fun key frontend' done more => fine_from key ?_
  cases done
  have met : launching.Meets hosts {frontend with made := frontend.made + 1} := by cases launching <;> exact meets
  refine from_bind (from_launch sound met ((holding_nothing _).mpr more)) fun _ frontend' _ more => ?_
  exact keeps_onHandles frontend' more

omit sound in
theorem keeps_tracked (mine : app.ids ⊆ own) :
    Keeps (Holding key) own (do modify (·.withApp key app); trackApp key) :=
  keeps_bind (keeps_withApp mine) fun _ => keeps_onHandles

theorem fine_launchAppBarrier (meets : launching.Meets hosts frontend) (fine : Fine [] frontend) :
    GainsFrom Fine [] (launchAppBarrier hosts launching) (fun _ => []) frontend := by
  refine from_bind (fine_newObject frontend fine) fun key frontend' done more => fine_from key ?_
  cases done
  have met : launching.Meets hosts {frontend with made := frontend.made + 1} := by cases launching <;> exact meets
  refine from_bind (from_launching sound met ((holding_nothing _).mpr more))
    fun app frontend' _ more => ?_
  exact keeps_tracked (subset_append_right _ _) frontend' more

theorem fine_registerApp (meets : registering.Meets frontend) (fine : Fine [] frontend) :
    GainsFrom Fine [] (registerApp hosts registering) (fun _ => []) frontend := by
  refine from_bind (fine_newObject frontend fine) fun key frontend' done more => fine_from key ?_
  cases done
  have met : registering.Meets {frontend with made := frontend.made + 1} := by cases registering <;> exact meets
  refine from_bind (from_registered sound met ((holding_nothing _).mpr more))
    fun app frontend' _ more => ?_
  exact keeps_tracked (subset_append_right _ _) frontend' more

theorem fine_getSrunInfo : Keeps Fine [] (getSrunInfo hosts launcherPath srunPid) := by
  refine keeps_bind fine_newObject fun key => fine_keeps key ?_
  split
  · exact gains_throw
  · refine gains_bind (gains_attaching sound launcherPath srunPid) fun result => ?_
    have mine : (.here,result.mpirId) ∈ [] ++ [(Endpoint.here,result.mpirId)] := by simp
    refine keeps_bind (keeps_readNumber (holding_lenient sound) mine) fun _ => keeps_bind (keeps_readNumber (holding_lenient sound) mine) fun _ => ?_
    exact keeps_bind (keeps_aimed (holding_lenient sound) rfl rfl mine) fun _ => keeps_pure

theorem fine_getApid : Keeps Fine [] (getApid hosts launcherPath launcherPid) := by
  refine keeps_bind fine_newObject fun key => fine_keeps key ?_
  refine gains_bind (gains_attaching sound launcherPath launcherPid) fun result => ?_
  have mine : (.here,result.mpirId) ∈ [] ++ [(Endpoint.here,result.mpirId)] := by simp
  refine keeps_bind (keeps_readString (holding_lenient sound) mine) fun _ => ?_
  exact keeps_bind (keeps_aimed (holding_lenient sound) rfl rfl mine) fun _ => keeps_pure

omit sound in
theorem fine_getApp : Keeps Fine [] (getApp appId) := fine_keeps 0 keeps_onHandles

end Calls

section Validity
variable {hosts : Nat → Host} {key : Nat} {frontend : Frontend}

theorem owner_object (owned : frontend.owner appId = some key) : ∃ app, frontend.apps.find key = some app :=
  Option.isSome_iff_exists.mp (Handles.held_iff.mp owned).2

theorem validApp_owned (owned : frontend.owner appId = some key) : validApp appId frontend = .ok true frontend := by
  unfold Frontend.owner at owned
  simp only [validApp,onHandles,Handles.isValid_eq,owned]
  rfl

theorem getApp_owned (owned : frontend.owner appId = some key) : getApp appId frontend = .ok key frontend := by
  simp only [getApp,onHandles,Handles.getHandle_held owned]

theorem validApp_unowned (unowned : frontend.owner appId = none) :
    validApp appId frontend = .ok false {frontend with handles := frontend.handles.erased appId} := by
  unfold Frontend.owner at unowned
  simp only [validApp,onHandles,Handles.isValid_eq,unowned]
  rfl

-- EproxySLURMApp asks the remote daemon about the local one's id.
def Frontend.CheckedAs (frontend : Frontend) (appId : Handle) : Prop :=
  ∀ key app, frontend.owner appId = some key → frontend.apps.find key = some app → app.kind = .EproxySLURM →
    ⟨some key,.there app.remoteDaemon,app.daemonAppId⟩ ∈ frontend.issued

theorem fine_appIsValid (sound : ∀ n, (hosts n).Sound) (meets : frontend.CheckedAs appId) (fine : Fine [] frontend) :
    GainsFrom Fine [] (appIsValid hosts appId reported cleanups palscmd) (fun _ => []) frontend := by
  cases owned : frontend.owner appId with
  | none =>
    rw [GainsFrom,Ends,appIsValid,bind_after (validApp_unowned owned)]
    exact fun few => {fine few with}
  | some key =>
    obtain ⟨app,found⟩ := owner_object owned
    have kept : appIsValid hosts appId reported cleanups palscmd frontend =
        (do
          if ← isRunning hosts key app reported then return true
          else
            removeApp hosts appId key cleanups palscmd
            return false : Work Bool) frontend := by
      rw [appIsValid,bind_after (validApp_owned owned)]
      simp only [if_true]
      rw [bind_after (getApp_owned owned),bind_after (object_found found)]
    unfold GainsFrom Ends
    rw [kept]
    refine fine_from key (from_less (nil_subset (app.ids ++ if app.kind = .EproxySLURM
      then [(.there app.remoteDaemon,app.daemonAppId)] else [])) ?_)
    refine keeps_bind (keeps_isRunning (holding_lenient sound) (subset_append_left _ _) fun remote => ?_) (fun running => ?_) frontend ?_
    · simp [remote]
    · cases running with
      | true => exact keeps_pure
      | false => exact keeps_bind (keeps_removeApp sound) fun _ => keeps_pure
    · intro few
      refine ⟨fine few,fun pair inside => ?_⟩
      rcases mem_append.mp inside with own | remote
      · exact (fine few).owned key app found pair own
      · split at remote
        · rename_i kind
          cases mem_singleton.mp remote
          exact meets key app owned found kind
        · cases remote

end Validity

end CommonTools.Applications
