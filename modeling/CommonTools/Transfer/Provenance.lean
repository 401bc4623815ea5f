import CommonTools.Transfer.Records

namespace CommonTools.Transfer
open OrderedMaps Plans Programs Texts List

def World.Recorded (w : World) (mani : Nat) (r : Record) : Prop :=
  ∃ row ∈ w.ledger, row.1 = mani ∧ r ∈ row.2.records

instance (w : World) (mani : Nat) (r : Record) : Decidable (w.Recorded mani r) := decidableBEx _ _

-- Every file of every archive handed over came from a path that some successful
-- add on its manifest recorded for the same folder and name.
def World.Provenance (w : World) (stageName : String) : Prop :=
  ∀ package ∈ w.packages, ∀ entry ∈ package.entries, ∀ folder name source, Without '/' folder →
    entry.Carries (destPath stageName folder name) source → w.Recorded package.manifest ⟨folder,name,source⟩

-- The sources are filed by bare name. A record agrees with the manifest when no
-- other folder holds the name from elsewhere.
def Agrees (m : Manifest) (r : Record) : Prop :=
  ∀ pair ∈ m.folders.pairs, pair.2 = r.name → pair.1 ≠ r.folder → m.sourcePaths.find r.name = some r.source

instance (m : Manifest) (r : Record) : Decidable (Agrees m r) := decidableBAll _ _

def AllAgree (m : Manifest) : List Effect → Prop
  | [] => True
  | .overridden :: rest => AllAgree m.useOverride rest
  | .recorded r :: rest => Agrees m r ∧ AllAgree (m.record r) rest

def decidableAllAgree (m : Manifest) : (effects : List Effect) → Decidable (AllAgree m effects)
  | [] => .isTrue trivial
  | .overridden :: rest => decidableAllAgree m.useOverride rest
  | .recorded r :: rest =>
    have := decidableAllAgree (m.record r) rest
    inferInstanceAs (Decidable (Agrees m r ∧ AllAgree (m.record r) rest))

instance (m : Manifest) (effects : List Effect) : Decidable (AllAgree m effects) := decidableAllAgree m effects

def decidableWhole (plan : AddCall → Plan Effect Added) : (calls : List AddCall) → Decidable (Whole plan calls)
  | [] => .isTrue trivial
  | call :: rest =>
    have := decidableWhole plan rest
    match h : (plan call).outcome with
    | .ok _ => decidable_of_iff (Whole plan rest) (by simp [Whole,h])
    | .error _ => decidable_of_iff (records (plan call).effects = []) (by simp [Whole,h])

instance (plan : AddCall → Plan Effect Added) (calls : List AddCall) : Decidable (Whole plan calls) :=
  decidableWhole plan calls

def Unmixed (host : Host) (app : App) (w : World) (call : Call) : Prop :=
  match call.target.bind (w.manifests[·]?) with
  | none => True
  | some m => Whole (w.plan host m) (call.adds app w) ∧
      AllAgree m (Plan.each (w.plan host m) (call.adds app w)).effects

instance (host : Host) (app : App) (w : World) (call : Call) : Decidable (Unmixed host app w call) := by
  unfold Unmixed
  generalize call.target.bind (w.manifests[·]?) = found
  exact match found with
    | none => inferInstance
    | some _ => inferInstance

def Vouched (P : Record → Prop) (m : Manifest) : Prop :=
  ∀ folder name source, m.folders.Holds folder name → m.sourcePaths.find name = some source → P ⟨folder,name,source⟩

section Vouching
variable {P Q : Record → Prop} {m : Manifest}

theorem vouched_mono (weaker : ∀ r, P r → Q r) (vouched : Vouched P m) : Vouched Q m :=
  fun folder name source held found => weaker _ (vouched folder name source held found)

theorem vouched_record (agrees : Agrees m r) (known : P r) (vouched : Vouched P m) : Vouched P (m.record r) := by
  intro folder name source held found
  simp only [Manifest.record,OrderedMap.find_insert,Grouped.holds_add] at held found
  by_cases same : name = r.name
  · subst same
    simp only [if_true,Option.some.injEq] at found
    subst found
    by_cases here : folder = r.folder
    · subst here; exact known
    · have old := held.resolve_left fun pair => here pair.1
      exact vouched _ _ _ old (agrees _ ((Grouped.mem_pairs _).mpr old) rfl here)
  · rw [if_neg same] at found
    exact vouched _ _ _ (held.resolve_left fun pair => same pair.2) found

theorem vouched_useOverride (vouched : Vouched P m) : Vouched P m.useOverride := by
  unfold Manifest.useOverride; split <;> exact vouched

theorem vouched_applied (agree : AllAgree m effects) (known : ∀ r ∈ records effects, P r)
    (vouched : Vouched P m) : Vouched P (effects.foldl Manifest.apply m) := by
  induction effects generalizing m with
  | nil => exact vouched
  | cons e rest ih =>
    cases e with
    | overridden => exact ih agree known (vouched_useOverride vouched)
    | recorded r =>
      exact ih agree.2 (fun other later => known other (mem_cons_of_mem _ later))
        (vouched_record agree.1 (known r mem_cons_self) vouched)

theorem vouched_discarded {removed : List (String × String)} (vouched : Vouched P m) : Vouched P (removed.foldl Manifest.discard m) := by
  induction removed generalizing m with
  | nil => exact vouched
  | cons pair rest ih =>
    apply ih
    intro folder name source held found
    simp only [Manifest.discard,OrderedMap.find_erase,Grouped.holds_drop] at held found
    split at found
    · cases found
    · exact vouched _ _ _ held.2 found

end Vouching

def World.Vouches (w : World) (mani : Nat) (r : Record) : Prop := w.Recorded mani r ∧ Without '/' r.folder

structure Sourced (stageName : String) (w : World) : Prop where
  stage : w.session.stageName = stageName
  manifests : ∀ mani m, w.manifests[mani]? = some m → Vouched (w.Vouches mani) m
  packages : w.Provenance stageName

section Growing
variable {host : Host} {app : App} {w : World} {mani : Nat} {m : Manifest} {stageName : String}

theorem recorded_grow (recorded : w.Recorded other r) : (w.grow mani m taken).Recorded other r := by
  obtain ⟨row,present,own,inside⟩ := recorded
  exact ⟨row,mem_append_left _ present,own,inside⟩

theorem vouches_grow (vouches : w.Vouches other r) : (w.grow mani m taken).Vouches other r := ⟨recorded_grow vouches.1,vouches.2⟩

theorem filled_vouched (vouched : Vouched (w.Vouches mani) m) (agree : AllAgree m (Plan.each (w.plan host m) calls).effects)
    (recorded : records (Plan.each (w.plan host m) calls).effects = taken.flatMap Added.records) :
    Vouched ((w.grow mani full taken).Vouches mani) (filled host w calls m) := by
  refine vouched_applied agree ?_ (vouched_mono (fun r => vouches_grow) vouched)
  intro r known
  refine ⟨?_,?_⟩
  · rw [recorded] at known
    obtain ⟨added,present,inside⟩ := mem_flatMap.mp known
    exact ⟨(mani,added),mem_append_right _ (mem_map_of_mem present),rfl,inside⟩
  · obtain ⟨e,present,isRecord⟩ := mem_filterMap.mp known
    have lawful := filled_lawful e present
    cases e with
    | overridden => cases isRecord
    | recorded other =>
      cases isRecord
      exact staged_without (lawful r rfl).1

theorem grow_manifests (sourced : Sourced stageName w) (vouched : Vouched ((w.grow mani m taken).Vouches mani) m) :
    ∀ other m', (w.grow mani m taken).manifests[other]? = some m' → Vouched ((w.grow mani m taken).Vouches other) m' := by
  intro other m' present
  simp only [World.grow,getElem?_set] at present
  split at present
  · rename_i same
    subst same
    split at present
    · cases present; exact vouched
    · cases present
  · exact vouched_mono (fun r => vouches_grow) (sourced.manifests other m' present)

theorem grow_packages (sourced : Sourced stageName w) : (w.grow mani m taken).Provenance stageName :=
  fun package shipped entry inside folder name source free carries =>
    recorded_grow (sourced.packages package shipped entry inside folder name source free carries)

theorem grow_sourced (sourced : Sourced stageName w) (vouched : Vouched ((w.grow mani m taken).Vouches mani) m) :
    Sourced stageName (w.grow mani m taken) :=
  ⟨sourced.stage,grow_manifests sourced vouched,grow_packages sourced⟩

theorem session_sourced (sourced : Sourced stageName w) (same : s.stageName = stageName) :
    Sourced stageName {w with session := s} := ⟨same,sourced.manifests,sourced.packages⟩

theorem merged_sourced (sourced : Sourced stageName w)
    (vouched : Vouched ((w.grow mani (kept removed m) taken).Vouches mani) m) (same : s.stageName = stageName) :
    Sourced stageName (w.merged mani m taken removed s) :=
  session_sourced (grow_sourced sourced (vouched_discarded vouched)) (by rw [extended_stageName,same])

theorem delivered_sourced (sourced : Sourced stageName w)
    (vouched : Vouched ((w.grow mani (kept removed m) taken).Vouches mani) m) (same : s.stageName = stageName) :
    Sourced stageName (w.delivered mani delivery m taken removed s) := by
  have before := merged_sourced sourced vouched same
  refine ⟨before.stage,before.manifests,?_⟩
  intro package shipped entry inside folder name source free carries
  rcases mem_append.mp shipped with old | new
  · exact before.packages package old entry inside folder name source free carries
  · cases mem_singleton.mp new
    obtain ⟨folder',name',held,found,path⟩ := carries_fileEntry inside carries
    have unchanged : Vouched ((w.grow mani (kept removed m) taken).Vouches mani) m.finalize := vouched
    have known := vouched_discarded unchanged folder' name' source held found
    rw [same] at path
    obtain ⟨rfl,rfl⟩ := destPath_inj free known.2 path
    exact known.1

theorem started_sourced (sourced : Sourced stageName w) : Sourced stageName (w.started start) :=
  ⟨sourced.stage,sourced.manifests,sourced.packages⟩

theorem outcome_sourced (sourced : Sourced stageName w) (fits : ∀ m, w.manifests[mani]? = some m → Whole (w.plan host m) calls ∧
      AllAgree m (Plan.each (w.plan host m) calls).effects)
    (outcome : Outcome host w mani calls delivery Args synchronous returned w') : Sourced stageName w' := by
  have stage : ∀ {s}, (w.opened mani).SameBut s → s.stageName = stageName := fun frame => (frame_stageName frame).trans sourced.stage
  cases outcome with
  | refused _ => exact sourced
  | emptied _ owned present nothing =>
    have vouched := sourced.manifests _ _ present
    exact session_sourced (grow_sourced sourced (vouched_mono (fun r => vouches_grow) vouched)) sourced.stage
  | unadded entered threw =>
    obtain ⟨entire,agree⟩ := fits _ entered.present
    exact grow_sourced sourced (filled_vouched (sourced.manifests _ _ entered.present) agree (whole_records entire))
  | unmerged entered added failed =>
    refine session_sourced (grow_sourced sourced ?_) (stage (mergeFails_frame failed))
    exact filled_vouched (sourced.manifests _ _ entered.present) (fits _ entered.present).2 (whole_records (whole_ok added))
  | undelivered entered added merged =>
    refine merged_sourced sourced ?_ (stage (merges_frame merged))
    exact filled_vouched (sourced.manifests _ _ entered.present) (fits _ entered.present).2 (whole_records (whole_ok added))
  | unstarted entered added merged =>
    refine delivered_sourced sourced ?_ (stage (merges_frame merged))
    exact filled_vouched (sourced.manifests _ _ entered.present) (fits _ entered.present).2 (whole_records (whole_ok added))
  | started entered added merged told =>
    refine started_sourced (delivered_sourced sourced ?_ (stage (merges_frame merged)))
    exact filled_vouched (sourced.manifests _ _ entered.present) (fits _ entered.present).2 (whole_records (whole_ok added))

theorem created_sourced (sourced : Sourced stageName w) : Sourced stageName w.created := by
  refine ⟨sourced.stage,?_,sourced.packages⟩
  intro mani m present
  simp only [World.created,getElem?_append] at present
  split at present
  · exact sourced.manifests mani m present
  · obtain rfl : m = Manifest.fresh (w.session.manifestCnt + 1) := by simpa using mem_of_getElem? present
    intro folder name source held
    exact absurd held Grouped.holds_empty

theorem fits_target (unmixed : Unmixed host app w call) (target : call.target = some mani) :
    ∀ m, w.manifests[mani]? = some m → Whole (w.plan host m) (call.adds app w) ∧
      AllAgree m (Plan.each (w.plan host m) (call.adds app w)).effects := by
  intro m present
  unfold Unmixed at unmixed
  simpa only [target,Option.bind_some,present] using unmixed

theorem next_sourced (sourced : Sourced stageName w) (unmixed : Unmixed host app w call) : Sourced stageName (call.next host app w) := by
  have moved := next_moves host app w call
  generalize call.next host app w = w' at moved
  cases moved with
  | created => exact created_sourced sourced
  | absent _ => exact sourced
  | added present =>
    obtain ⟨entire,agree⟩ := fits_target unmixed rfl _ present
    exact grow_sourced sourced (filled_vouched (sourced.manifests _ _ present) agree (whole_records entire))
  | sent outcome | ran outcome => exact outcome_sourced sourced (fits_target unmixed rfl) outcome

end Growing

theorem start_sourced : Sourced stageName (World.start app stageName wlmType) :=
  ⟨rfl,fun _ _ present => by simp [World.start] at present,fun _ shipped => by simp [World.start] at shipped⟩

-- In every run whose adds are unmixed each archive carries what was recorded for it.
theorem reached_provenance (host : Host) (app : App) (stageName wlmType : String)
    (path : Reached (Unmixed host app) (Call.next host app) (World.start app stageName wlmType) calls w) : w.Provenance stageName :=
  (reached_invariant start_sourced (fun _ _ => next_sourced) path).packages

def oneFileTwice : List Call :=
  [.createManifest,.add 0 (.file "/a/x"),.add 0 (.binary "/a/x" .Ignore),.sendManifest plainDelivery 0]

theorem reached_provenance_one_file : Reached (Unmixed (plainHost fun _ => none) plainApp) (Call.next (plainHost fun _ => none) plainApp)
      (World.start plainApp "stage" "wlm") oneFileTwice (plainRun (fun _ => none) oneFileTwice) ∧
    (plainRun (fun _ => none) oneFileTwice).packages.length = 1 ∧ (plainRun (fun _ => none) oneFileTwice).Provenance "stage" := by
  have path : Reached (Unmixed (plainHost fun _ => none) plainApp) (Call.next (plainHost fun _ => none) plainApp)
      (World.start plainApp "stage" "wlm") oneFileTwice _ := reached_run (by decide)
  exact ⟨path,by decide,reached_provenance (plainHost fun _ => none) plainApp "stage" "wlm" path⟩

def twoFilesOneName : List Call :=
  [.createManifest,.add 0 (.file "/a/x"),.add 0 (.binary "/b/x" .Ignore),.sendManifest plainDelivery 0]

theorem two_files_one_name_mixed : ¬ (plainRun (fun _ => none) twoFilesOneName).Provenance "stage" := by
  intro provenance
  have wrong := provenance ⟨0,"stage1.tar",dirEntries "stage" ++ [.file "stage//x" "/b/x",.file "stage/bin/x" "/b/x"]⟩
    (by decide) (.file "stage//x" "/b/x") (by decide) "" "x" "/b/x" (by decide) (.inl (by decide))
  revert wrong
  decide

end CommonTools.Transfer
