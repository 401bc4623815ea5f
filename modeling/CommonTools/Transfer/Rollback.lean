import CommonTools.Transfer.Deduplication

namespace CommonTools.Transfer
open OrderedMaps Plans Programs Texts List

def Session.SameRecord (s s' : Session) : Prop :=
  s'.folders = s.folders ∧ s'.sourcePaths = s.sourcePaths ∧ s'.addRequirements = s.addRequirements ∧
    s'.ldLibraryPath = s.ldLibraryPath

instance (s s' : Session) : Decidable (s.SameRecord s') := inferInstanceAs (Decidable (_ ∧ _))

def OnRecord (shipped newPaths : PathMap) (pair : String × String) : Prop :=
  (newPaths.find pair.2).isSome = true ∧ shipped.find (fileKey pair) = newPaths.find pair.2

instance (shipped newPaths : PathMap) (pair : String × String) : Decidable (OnRecord shipped newPaths pair) :=
  inferInstanceAs (Decidable (_ ∧ _))

def Blocked (host : Host) (shipped newPaths : PathMap) (pair : String × String) : Prop :=
  shipped.find (fileKey pair) = none → (newPaths.find pair.2).bind host.realpath = none

instance (host : Host) (shipped newPaths : PathMap) (pair : String × String) :
    Decidable (Blocked host shipped newPaths pair) := inferInstanceAs (Decidable (_ → _))

def QuietMerge (host : Host) (folders : FoldersMap) (shipped newPaths : PathMap) : List (String × String) → Prop
  | [] => True
  | pair :: rest => folders.Holds pair.1 pair.2 ∧
      if OnRecord shipped newPaths pair then QuietMerge host folders shipped newPaths rest
      else Blocked host shipped newPaths pair

def decidableQuietMerge (host : Host) (folders : FoldersMap) (shipped newPaths : PathMap) :
    (pairs : List (String × String)) → Decidable (QuietMerge host folders shipped newPaths pairs)
  | [] => .isTrue trivial
  | pair :: rest =>
    have := decidableQuietMerge host folders shipped newPaths rest
    inferInstanceAs (Decidable (folders.Holds pair.1 pair.2 ∧
      if OnRecord shipped newPaths pair then QuietMerge host folders shipped newPaths rest
      else Blocked host shipped newPaths pair))

instance (host : Host) (folders : FoldersMap) (shipped newPaths : PathMap) (pairs : List (String × String)) :
    Decidable (QuietMerge host folders shipped newPaths pairs) := decidableQuietMerge host folders shipped newPaths pairs

-- A shipment that, should it fail, has nothing to take back: the session does
-- not own the manifest, or the adds throw, or there is nothing left to remember.
def QuietShipment (host : Host) (w : World) (mani : Nat) (calls : List AddCall) : Prop :=
  mani ∈ w.session.manifests →
    match w.manifests[mani]? with
    | none => True
    | some m => (Plan.each (w.plan host m) calls).outcome.isOk = true →
      w.session.addRequirements = false ∧
      QuietMerge host w.session.folders w.session.sourcePaths (filled host w calls m).sourcePaths
        (filled host w calls m).folders.pairs ∧
      ((filled host w calls m).ldLibraryOverrideFolder = "" ∨
        ∃ pair ∈ (filled host w calls m).folders.pairs,
          ¬ OnRecord w.session.sourcePaths (filled host w calls m).sourcePaths pair)

instance (host : Host) (w : World) (mani : Nat) (calls : List AddCall) : Decidable (QuietShipment host w mani calls) := by
  unfold QuietShipment
  generalize w.manifests[mani]? = found
  exact match found with
    | none => inferInstance
    | some _ => inferInstance

def Quiet (host : Host) (app : App) (w : World) (call : Call) : Prop :=
  match call.shipment with
  | none => True
  | some mani => QuietShipment host w mani (call.adds app w)

instance (host : Host) (app : App) (w : World) (call : Call) : Decidable (Quiet host app w call) := by
  unfold Quiet
  generalize call.shipment = shipment
  exact match shipment with
    | none => inferInstance
    | some _ => inferInstance

section Merging
variable {host : Host} {newPaths : PathMap} {s s' : Session} {pairs : List (String × String)}

theorem mergeStep_grows (step : MergeStep host newPaths s pair known s') :
    (∀ folder name, s.folders.Holds folder name → s'.folders.Holds folder name) ∧
    (∀ key path, s.sourcePaths.find key = some path → s'.sourcePaths.find key = some path) := by
  refine ⟨fun folder name held => (mergeStep_folders step).mpr (.inl held),fun key path found => ?_⟩
  rw [mergeStep_find step (.inr (by rw [found]; rfl)),found]

theorem mergeRun_grows (run : MergeRun host newPaths s pairs s') :
    (∀ folder name, s.folders.Holds folder name → s'.folders.Holds folder name) ∧
    (∀ key path, s.sourcePaths.find key = some path → s'.sourcePaths.find key = some path) := by
  induction run with
  | done => exact ⟨fun _ _ held => held,fun _ _ found => found⟩
  | stopped step => exact mergeStep_grows step
  | onward step _ ih =>
    obtain ⟨held,found⟩ := mergeStep_grows step
    exact ⟨fun folder name old => ih.1 folder name (held folder name old),
      fun key path old => ih.2 key path (found key path old)⟩

theorem enter_same : (s.enter pair).folders = s.folders ↔ s.folders.Holds pair.1 pair.2 := by
  constructor
  · intro same
    rw [← same]
    exact Grouped.holds_add.mpr (.inl ⟨rfl,rfl⟩)
  · exact Grouped.add_held

theorem onRecord_shipped (step : MergeStep host newPaths s pair (some true) s') :
    OnRecord s.sourcePaths newPaths pair ∧ s' = s.enter pair := by
  cases step with
  | shipped source same => exact ⟨⟨by rw [source]; rfl,by rw [same,source]⟩,rfl⟩

theorem unrecorded_fresh (step : MergeStep host newPaths s pair (some false) s') :
    ¬ OnRecord s.sourcePaths newPaths pair ∧ ¬ Blocked host s.sourcePaths newPaths pair ∧
      s.sourcePaths.find (fileKey pair) = none ∧ ∃ canonical, s'.sourcePaths.find (fileKey pair) = some canonical := by
  cases step with
  | fresh source unknown real =>
    refine ⟨?_,?_,unknown,_,by simp [Session.register,fileKey]; rfl⟩
    · rintro ⟨_,same⟩
      rw [unknown,source] at same
      cases same
    · intro blocked
      have stuck := blocked unknown
      rw [source,Option.bind_some,real] at stuck
      cases stuck

theorem blocked_stopped (step : MergeStep host newPaths s pair none s') :
    ¬ OnRecord s.sourcePaths newPaths pair ∧ Blocked host s.sourcePaths newPaths pair ∧ s' = s.enter pair := by
  cases step with
  | missing source =>
    refine ⟨?_,?_,rfl⟩
    · rintro ⟨present,_⟩
      rw [source] at present
      cases present
    · intro _
      rw [source]; rfl
  | conflict source known differs =>
    refine ⟨?_,?_,rfl⟩
    · rintro ⟨_,same⟩
      rw [known,source] at same
      exact differs (Option.some.inj same)
    · intro unknown
      rw [known] at unknown
      cases unknown
  | unreal source unknown lost =>
    refine ⟨?_,?_,rfl⟩
    · rintro ⟨_,same⟩
      rw [unknown,source] at same
      cases same
    · intro _
      rw [source]; exact lost

theorem mergeRun_quiet (run : MergeRun host newPaths s pairs s') : (s'.folders = s.folders ∧ s'.sourcePaths = s.sourcePaths) ↔
      QuietMerge host s.folders s.sourcePaths newPaths pairs := by
  induction run with
  | done => simp [QuietMerge]
  | stopped step =>
    obtain ⟨unrecorded,blocked,rfl⟩ := blocked_stopped step
    simp only [QuietMerge,if_neg unrecorded]
    exact ⟨fun same => ⟨enter_same.mp same.1,blocked⟩,fun quiet => ⟨enter_same.mpr quiet.1,rfl⟩⟩
  | @onward s pair known middle rest s' step more ih =>
    obtain ⟨stillHeld,stillFound⟩ := mergeRun_grows more
    simp only [QuietMerge]
    cases known with
    | true =>
      obtain ⟨recorded,rfl⟩ := onRecord_shipped step
      rw [if_pos recorded]
      by_cases held : s.folders.Holds pair.1 pair.2
      · rw [enter_same.mpr held] at ih
        exact ih.trans ⟨fun quiet => ⟨held,quiet⟩,fun both => both.2⟩
      · refine iff_of_false ?_ fun quiet => held quiet.1
        intro same
        have entered := stillHeld pair.1 pair.2 (Grouped.holds_add.mpr (.inl ⟨rfl,rfl⟩))
        rw [same.1] at entered
        exact held entered
    | false =>
      obtain ⟨unrecorded,unblocked,unknown,canonical,now⟩ := unrecorded_fresh step
      rw [if_neg unrecorded]
      refine iff_of_false ?_ fun quiet => unblocked quiet.2
      intro same
      have found := stillFound _ _ now
      rw [same.2,unknown] at found
      cases found

theorem mergeFails_unrecorded (failed : MergeFails host newPaths s pairs s') : ∃ pair ∈ pairs, ¬ OnRecord s.sourcePaths newPaths pair := by
  induction failed with
  | here step => exact ⟨_,mem_cons_self,(blocked_stopped step).1⟩
  | @later s pair known middle rest s' step _ ih =>
    cases known with
    | false => exact ⟨_,mem_cons_self,(unrecorded_fresh step).1⟩
    | true =>
      obtain ⟨_,rfl⟩ := onRecord_shipped step
      obtain ⟨other,inside,unrecorded⟩ := ih
      exact ⟨other,mem_cons_of_mem _ inside,unrecorded⟩

theorem merges_quiet_recorded (merged : Merges host newPaths s pairs removed s')
    (quiet : QuietMerge host s.folders s.sourcePaths newPaths pairs) : ∀ pair ∈ pairs, OnRecord s.sourcePaths newPaths pair := by
  induction merged with
  | done => intro pair inside; cases inside
  | shipped step _ ih =>
    obtain ⟨recorded,rfl⟩ := onRecord_shipped step
    simp only [QuietMerge,if_pos recorded] at quiet
    rw [enter_same.mpr quiet.1] at ih
    intro pair inside
    rcases mem_cons.mp inside with rfl | later
    · exact recorded
    · exact ih quiet.2 pair later
  | fresh step _ _ =>
    obtain ⟨unrecorded,unblocked,_⟩ := unrecorded_fresh step
    simp only [QuietMerge,if_neg unrecorded] at quiet
    exact absurd quiet.2 unblocked

end Merging

section Failing
variable {host : Host} {app : App} {w : World} {mani : Nat} {stageName : String}

theorem extended_longer (named : libPath ≠ "") {s : Session} : (s.extended libPath).ldLibraryPath ≠ s.ldLibraryPath := by
  intro same
  rw [Session.extended,if_pos named] at same
  have lengths := congrArg (fun text => text.toList.length) same
  simp only [String.toList_append,length_append] at lengths
  have one : ("/" : String).toList.length = 1 := rfl
  omega

theorem mergeRun_record (run : MergeRun host newPaths (w.opened mani) pairs s') :
    w.session.SameRecord s' ↔ w.session.addRequirements = false ∧
      QuietMerge host w.session.folders w.session.sourcePaths newPaths pairs := by
  have quiet := mergeRun_quiet run
  have frame := mergeRun_frame run
  have flag : s'.addRequirements = false := by rw [frame]; rfl
  have path : s'.ldLibraryPath = w.session.ldLibraryPath := by rw [frame]; rfl
  constructor
  · rintro ⟨folders,sources,required,_⟩
    exact ⟨required.symm.trans flag,quiet.mp ⟨folders,sources⟩⟩
  · rintro ⟨required,silent⟩
    obtain ⟨folders,sources⟩ := quiet.mpr silent
    exact ⟨folders,sources,flag.trans required.symm,path⟩

theorem extended_record (run : MergeRun host newPaths (w.opened mani) pairs s') :
    w.session.SameRecord (s'.extended libPath) ↔ w.session.SameRecord s' ∧ libPath = "" := by
  have path : s'.ldLibraryPath = w.session.ldLibraryPath := by rw [mergeRun_frame run]; rfl
  by_cases named : libPath = ""
  · subst named
    simp [Session.extended]
  · refine iff_of_false ?_ fun both => named both.2
    intro same
    exact extended_longer named (same.2.2.2.trans path.symm)

theorem merged_record {full : Manifest} (merged : Merges host full.sourcePaths (w.opened mani) full.folders.pairs removed s') :
    w.session.SameRecord (s'.extended full.ldLibraryOverrideFolder) ↔ w.session.addRequirements = false ∧
      QuietMerge host w.session.folders w.session.sourcePaths full.sourcePaths full.folders.pairs ∧ (full.ldLibraryOverrideFolder = "" ∨
        ∃ pair ∈ full.folders.pairs, ¬ OnRecord w.session.sourcePaths full.sourcePaths pair) := by
  rw [extended_record (merges_run merged),mergeRun_record (merges_run merged),and_assoc]
  refine and_congr_right fun _ => and_congr_right fun quiet => ?_
  -- A merge that gets through quietly found every pair on record.
  have recorded := merges_quiet_recorded merged quiet
  exact ⟨.inl,fun either => either.resolve_right fun ⟨pair,inside,unrecorded⟩ => unrecorded (recorded pair inside)⟩

theorem unmerged_record {full : Manifest} (failed : MergeFails host full.sourcePaths (w.opened mani) full.folders.pairs s') :
    w.session.SameRecord s' ↔ w.session.addRequirements = false ∧
      QuietMerge host w.session.folders w.session.sourcePaths full.sourcePaths full.folders.pairs ∧ (full.ldLibraryOverrideFolder = "" ∨
        ∃ pair ∈ full.folders.pairs, ¬ OnRecord w.session.sourcePaths full.sourcePaths pair) := by
  rw [mergeRun_record (mergeFails_run failed)]
  have unrecorded := mergeFails_unrecorded failed
  exact and_congr_right fun _ => ⟨fun quiet => ⟨quiet,.inr unrecorded⟩,fun both => both.1⟩

theorem quietShipment_entered (entered : Entered w mani m synchronous) (added : (Plan.each (w.plan host m) calls).outcome = .ok taken) :
    QuietShipment host w mani calls ↔ w.session.addRequirements = false ∧
      QuietMerge host w.session.folders w.session.sourcePaths (filled host w calls m).sourcePaths (filled host w calls m).folders.pairs ∧
      ((filled host w calls m).ldLibraryOverrideFolder = "" ∨ ∃ pair ∈ (filled host w calls m).folders.pairs,
          ¬ OnRecord w.session.sourcePaths (filled host w calls m).sourcePaths pair) := by
  have works : (Plan.each (w.plan host m) calls).outcome.isOk = true := by rw [added]; rfl
  simp only [QuietShipment,entered.present,entered.owned,works,true_implies]

theorem outcome_record (outcome : Outcome host w mani calls delivery Args synchronous false w') :
    w.session.SameRecord w'.session ↔ QuietShipment host w mani calls := by
  cases outcome with
  | refused unowned =>
    refine iff_of_true ⟨rfl,rfl,rfl,rfl⟩ fun owned => ?_
    rw [unowned.resolve_left (fun absent => absent owned)]
    trivial
  | unadded entered threw =>
    refine iff_of_true ⟨rfl,rfl,rfl,rfl⟩ fun _ => ?_
    rw [entered.present]
    simp [threw,Except.isOk,Except.toBool]
  | unmerged entered added failed => exact (unmerged_record failed).trans (quietShipment_entered entered added).symm
  | undelivered entered added merged | unstarted entered added merged =>
    exact (merged_record merged).trans (quietShipment_entered entered added).symm

theorem ended_badly (conclusion : Concludes host w mani calls delivery Args synchronous result) (threw : ¬ Returned result) :
    Outcome host w mani calls delivery Args synchronous false (after result) := by
  unfold Concludes at conclusion
  rwa [decide_eq_false threw] at conclusion

theorem thrown_record (host : Host) (app : App) (w : World) (call : Call)
    (threw : ¬ Returned (call.perform host app w)) (ships : call.shipment.isSome = true) :
    w.session.SameRecord (call.next host app w).session ↔ Quiet host app w call := by
  cases call with
  | createManifest | add mani call => cases ships
  | sendManifest delivery mani => exact outcome_record (ended_badly sendManifest_outcome threw)
  | execManifest delivery mani daemon daemonArgs envVars =>
    exact outcome_record (ended_badly (execManifest_outcome host app delivery mani daemon daemonArgs envVars w) threw)

theorem outcome_onward (outcome : Outcome host w mani calls delivery Args synchronous returned w') :
    w.Onward w' ∧ w'.session.stageName = w.session.stageName := by
  have still : w.Onward w := ⟨List.Subset.refl _,List.Subset.refl _⟩
  cases outcome with
  | refused _ | emptied _ owned present nothing | unadded entered threw => exact ⟨still,rfl⟩
  | unmerged entered added failed => exact ⟨still,frame_stageName (mergeFails_frame failed)⟩
  | undelivered entered added merged => exact ⟨still,extended_stageName.trans (frame_stageName (merges_frame merged))⟩
  | unstarted entered added merged =>
    exact ⟨⟨subset_append_left _ _,List.Subset.refl _⟩,
      extended_stageName.trans (frame_stageName (merges_frame merged))⟩
  | started entered added merged told => exact ⟨shipped_onward,extended_stageName.trans (frame_stageName (merges_frame merged))⟩

def Steady (host : Host) (app : App) (w : World) (call : Call) : Prop :=
  if Returned (call.perform host app w) then Smooth host app w call else Quiet host app w call

instance (host : Host) (app : App) (w : World) (call : Call) : Decidable (Steady host app w call) :=
  inferInstanceAs (Decidable (ite _ _ _))

theorem failed_deduplicated (dedup : Deduplicated host stageName w) (threw : ¬ Returned (call.perform host app w))
    (ships : call.shipment.isSome = true) (quiet : Quiet host app w call) : Deduplicated host stageName (call.next host app w) := by
  have orderly := next_orderly app dedup.orderly call
  obtain ⟨folders,sources,_⟩ := (thrown_record host app w call threw ships).mpr quiet
  have moved : w.Onward (call.next host app w) ∧ (call.next host app w).session.stageName = w.session.stageName := by
    cases call with
    | createManifest | add mani call => cases ships
    | sendManifest delivery mani => exact outcome_onward sendManifest_outcome
    | execManifest delivery mani daemon daemonArgs envVars =>
      exact outcome_onward (execManifest_outcome host app delivery mani daemon daemonArgs envVars w)
  refine ⟨moved.2.trans dedup.stage,orderly,?_,?_⟩
  · rw [folders,sources]
    exact dedup.filed
  · intro key source found
    rw [sources] at found
    obtain ⟨folder,name,free,same,landed⟩ := dedup.landed key source found
    exact ⟨folder,name,free,same,landed_onward moved.1 landed⟩

theorem steady_deduplicated (settled : host.Settled) (w : World) (call : Call)
    (dedup : Deduplicated host stageName w) (steady : Steady host app w call) : Deduplicated host stageName (call.next host app w) := by
  unfold Steady at steady
  split at steady
  · exact next_deduplicated settled w call dedup steady
  · rename_i threw
    cases call with
    | createManifest => exact absurd trivial threw
    | add mani call => exact add_deduplicated dedup
    | sendManifest delivery mani | execManifest delivery mani daemon daemonArgs envVars => exact failed_deduplicated dedup threw rfl steady

end Failing

-- The record is rolled back by exactly the quiet failures; while all failures are
-- quiet, every file on record has been unpacked by a started daemon, and a
-- manifest that is shipped leaves out only such files.
theorem failures_and_the_record (host : Host) (app : App) (stageName wlmType : String) (settled : host.Settled) :
    (∀ w call, call.shipment.isSome = true → ¬ Returned (call.perform host app w) →
      (w.session.SameRecord (call.next host app w).session ↔ Quiet host app w call)) ∧
    ∀ calls w, Reached (Steady host app) (Call.next host app) (World.start app stageName wlmType) calls w →
      (∀ folder name, w.session.folders.Holds folder name → ∃ source, w.session.sourcePaths.find (archivePath folder name) = some source) ∧
      (∀ key source, w.session.sourcePaths.find key = some source → ∃ folder name, Without '/' folder ∧
        key = archivePath folder name ∧ w.Landed (destPath stageName folder name) source) ∧
      ∀ call mani m, Smooth host app w call → call.shipment = some mani → w.manifests[mani]? = some m →
        (call.next host app w).Lands stageName (call.contents host app w m) := by
  refine ⟨fun w call ships threw => thrown_record host app w call threw ships,?_⟩
  intro calls w path
  have dedup := reached_invariant (start_deduplicated app stageName wlmType) (steady_deduplicated settled) path
  refine ⟨dedup.filed,dedup.landed,?_⟩
  intro call mani m smooth ships present
  obtain ⟨returned,separate⟩ := smooth_parts smooth ships
  exact (shipment_lands dedup settled ships returned separate).2 m present

def brokenStart : Delivery := {plainDelivery with startDaemon := some "no daemon"}

-- The second manifest has nothing new in it, so its failure changes nothing.
def nothingNew : List Call :=
  [.createManifest,.createManifest,.add 0 (.file "/a/x"),.sendManifest plainDelivery 0,.add 1 (.file "/a/x")]

theorem failures_and_the_record_nothing_new : ¬ Returned (Call.perform (plainHost fun _ => none) plainApp (.sendManifest brokenStart 1)
      (plainRun (fun _ => none) nothingNew)) ∧ (plainRun (fun _ => none) nothingNew).session.SameRecord
      (plainRun (fun _ => none) (nothingNew ++ [.sendManifest brokenStart 1])).session ∧
    ∃ folder name, Without '/' folder ∧ "/x" = archivePath folder name ∧
      (plainRun (fun _ => none) (nothingNew ++ [.sendManifest brokenStart 1])).Landed (destPath "stage" folder name) "/a/x" := by
  have whole := failures_and_the_record (plainHost fun _ => none) plainApp "stage" "wlm" fun _ _ _ => rfl
  refine ⟨by decide,?_,?_⟩
  · exact (whole.1 (plainRun (fun _ => none) nothingNew) (.sendManifest brokenStart 1) rfl (by decide)).mpr (by decide)
  · exact (whole.2 (nothingNew ++ [.sendManifest brokenStart 1]) _ (reached_run (by decide))).2.1 "/x" "/a/x" (by decide)

def brokenShip : Delivery := {plainDelivery with shipPackage := some "no space left"}

-- The first manifest never leaves, and the second one is told it has.
def neverLeft : List Call := [.createManifest,.createManifest,.add 0 (.file "/a/x")]

theorem failed_send_remembered : ¬ Returned (Call.perform (plainHost fun _ => none) plainApp (.sendManifest brokenShip 0)
      (plainRun (fun _ => none) neverLeft)) ∧ ¬ (plainRun (fun _ => none) neverLeft).session.SameRecord
      (plainRun (fun _ => none) (neverLeft ++ [.sendManifest brokenShip 0])).session ∧
    Returned (Call.perform (plainHost fun _ => none) plainApp (.sendManifest plainDelivery 1)
      (plainRun (fun _ => none) (neverLeft ++ [.sendManifest brokenShip 0,.add 1 (.file "/a/x")]))) ∧
    ¬ (plainRun (fun _ => none) (neverLeft ++ [.sendManifest brokenShip 0,.add 1 (.file "/a/x"),
      .sendManifest plainDelivery 1])).Delivered "stage//x" "/a/x" := by
  decide

end CommonTools.Transfer
