import CommonTools.Transfer.Records

namespace CommonTools.Transfer
open OrderedMaps Plans Programs Texts List

def World.Delivered (w : World) (path source : String) : Prop :=
  ∃ package ∈ w.packages, ∃ entry ∈ package.entries, entry.Carries path source

instance (w : World) (path source : String) : Decidable (w.Delivered path source) := decidableBEx _ _

def World.Completed (w : World) (package : Package) : Prop :=
  ∃ start ∈ w.starts, DaemonArg.manifestName package.name ∈ start.args

def World.Landed (w : World) (path source : String) : Prop :=
  ∃ package ∈ w.packages, w.Completed package ∧ ∃ entry ∈ package.entries, entry.Carries path source

theorem landed_delivered {w : World} (landed : w.Landed path source) : w.Delivered path source := by
  obtain ⟨package,inside,_,carried⟩ := landed
  exact ⟨package,inside,carried⟩

def World.Conveys (w : World) (stageName : String) (m : Manifest) : Prop :=
  ∀ folder name, m.folders.Holds folder name →
    ∃ source, m.sourcePaths.find name = some source ∧ w.Delivered (destPath stageName folder name) source

def World.Lands (w : World) (stageName : String) (m : Manifest) : Prop :=
  ∀ folder name, m.folders.Holds folder name →
    ∃ source, m.sourcePaths.find name = some source ∧ w.Landed (destPath stageName folder name) source

theorem lands_conveys {w : World} (lands : w.Lands stageName m) : w.Conveys stageName m := by
  intro folder name held
  obtain ⟨source,found,landed⟩ := lands folder name held
  exact ⟨source,found,landed_delivered landed⟩

def Call.shipment : Call → Option Nat
  | .createManifest => none
  | .add _ _ => none
  | .sendManifest _ mani => some mani
  | .execManifest _ mani _ _ _ => some mani

def Call.contents (host : Host) (app : App) (w : World) (m : Manifest) (call : Call) : Manifest :=
  match call with
  | .sendManifest _ _ => if m.empty then m else filled host w (call.adds app w) m
  | _ => filled host w (call.adds app w) m

def Unstraddled (shipped : PathMap) (m : Manifest) : Prop :=
  ∀ pair ∈ m.folders.pairs, ∀ pair' ∈ m.folders.pairs, pair'.2 = pair.2 →
    (shipped.find (fileKey pair)).isSome = true → (shipped.find (fileKey pair')).isSome = true

instance (shipped : PathMap) (m : Manifest) : Decidable (Unstraddled shipped m) := decidableBAll _ _

def Smooth (host : Host) (app : App) (w : World) (call : Call) : Prop :=
  match call.shipment with
  | none => True
  | some mani => Returned (call.perform host app w) ∧
    match w.manifests[mani]? with
    | none => True
    | some m => Unstraddled w.session.sourcePaths (call.contents host app w m)

instance (host : Host) (app : App) (w : World) (call : Call) : Decidable (Smooth host app w call) := by
  unfold Smooth
  generalize call.shipment = shipment
  match shipment with
  | none => exact inferInstance
  | some mani =>
    dsimp only
    generalize w.manifests[mani]? = found
    exact match found with
      | none => inferInstance
      | some _ => inferInstance

theorem discarded_other {removed : List (String × String)} (others : ∀ pair ∈ removed, pair.2 ≠ name) (folder : String) (m : Manifest) :
    ((removed.foldl Manifest.discard m).folders.Holds folder name ↔ m.folders.Holds folder name) ∧
    (removed.foldl Manifest.discard m).sourcePaths.find name = m.sourcePaths.find name := by
  induction removed generalizing m with
  | nil => exact ⟨Iff.rfl,rfl⟩
  | cons pair rest ih =>
    have differs := Ne.symm (others pair mem_cons_self)
    obtain ⟨held,found⟩ := ih (fun later inside => others later (mem_cons_of_mem _ inside)) (m.discard pair)
    rw [foldl_cons,held,found]
    simp [Manifest.discard,differs]

theorem shipEntries_carry (delivery : Delivery) (stageName : String) (held : m.folders.Holds folder name)
    (found : m.sourcePaths.find name = some source) :
    ∃ entry ∈ shipEntries delivery stageName m, entry.Carries (destPath stageName folder name) source := by
  have listed : (folder,name) ∈ m.folders.pairs := (Grouped.mem_pairs _).mpr held
  by_cases duplicate : source ∈ duplicateSourcePaths delivery m
  · refine ⟨.link (destPath stageName folder name) source,mem_append_right _ ?_,.inr rfl⟩
    exact mem_filterMap.mpr ⟨_,listed,by simp [found,duplicate]⟩
  · refine ⟨.file (destPath stageName folder name) source,mem_append_right _ ?_,.inl rfl⟩
    exact mem_filterMap.mpr ⟨_,listed,by simp [found,duplicate]⟩

structure Deduplicated (host : Host) (stageName : String) (w : World) : Prop where
  stage : w.session.stageName = stageName
  orderly : Orderly host w
  filed : ∀ folder name, w.session.folders.Holds folder name →
    ∃ source, w.session.sourcePaths.find (archivePath folder name) = some source
  landed : ∀ key source, w.session.sourcePaths.find key = some source →
    ∃ folder name, Without '/' folder ∧ key = archivePath folder name ∧
      w.Landed (destPath stageName folder name) source

def World.Onward (w w' : World) : Prop := w.packages ⊆ w'.packages ∧ w.starts ⊆ w'.starts

theorem landed_onward {w w' : World} (onward : w.Onward w') (landed : w.Landed path source) : w'.Landed path source := by
  obtain ⟨package,inside,⟨start,begun,named⟩,carried⟩ := landed
  exact ⟨package,onward.1 inside,⟨start,onward.2 begun,named⟩,carried⟩

section Conveying
variable {host : Host} {app : App} {w : World} {mani : Nat} {stageName : String} {full : Manifest}

theorem shipped_onward : w.Onward ((w.delivered mani delivery full taken removed s).started start) :=
  ⟨subset_append_left _ _,subset_append_left _ _⟩

theorem landed_fresh (tidy : Tidy host full) (separate : Unstraddled w.session.sourcePaths full)
    (merged : Merges host full.sourcePaths (w.opened mani) full.folders.pairs removed s)
    (named : .manifestName (archiveFile s.stageName full.inst) ∈ start.args)
    (held : full.folders.Holds folder name) (found : full.sourcePaths.find name = some source)
    (unknown : w.session.sourcePaths.find (archivePath folder name) = none) :
    ((w.delivered mani delivery full taken removed s).started start).Landed (destPath s.stageName folder name) source := by
  have others : ∀ pair ∈ removed, pair.2 ≠ name := by
    intro pair gone same
    obtain ⟨inside,known⟩ := (merges_removed (tidy_keys tidy) merged pair).mp gone
    have recorded := separate pair inside (folder,name) ((Grouped.mem_pairs _).mpr held) same.symm known
    change (w.session.sourcePaths.find (archivePath folder name)).isSome = true at recorded
    rw [unknown] at recorded
    cases recorded
  obtain ⟨stillHeld,stillFound⟩ := discarded_other others folder full.finalize
  obtain ⟨entry,inside,carries⟩ := shipEntries_carry delivery s.stageName (stillHeld.mpr held) (stillFound.trans found)
  exact ⟨_,mem_append_right _ (mem_singleton_self _),
    ⟨start,mem_append_right _ (mem_singleton_self _),named⟩,entry,inside,carries⟩

section
variable (dedup : Deduplicated host stageName w) (tidy : Tidy host full)
include dedup tidy

theorem shipped_lands (separate : Unstraddled w.session.sourcePaths full)
    (merged : Merges host full.sourcePaths (w.opened mani) full.folders.pairs removed s)
    (named : .manifestName (archiveFile s.stageName full.inst) ∈ start.args) :
    ((w.delivered mani delivery full taken removed s).started start).Lands stageName full := by
  have stage : s.stageName = stageName := (frame_stageName (merges_frame merged)).trans dedup.stage
  intro folder name held
  obtain ⟨path,found,before⟩ := merges_recorded (tidy_keys tidy) merged ((Grouped.mem_pairs _).mpr held)
  refine ⟨path,found,?_⟩
  rcases before with known | ⟨unknown,_⟩
  · obtain ⟨folder',name',free,key,landed⟩ := dedup.landed _ _ known
    obtain ⟨rfl,rfl⟩ := archivePath_inj (staged_without (tidy.staged _ _ held)) free key
    exact landed_onward shipped_onward landed
  · rw [← stage]
    exact landed_fresh tidy separate merged named held found unknown

theorem shipped_record (settled : host.Settled) (separate : Unstraddled w.session.sourcePaths full)
    (merged : Merges host full.sourcePaths (w.opened mani) full.folders.pairs removed s)
    (named : .manifestName (archiveFile s.stageName full.inst) ∈ start.args) (recorded : s.sourcePaths.find key = some source) :
    ∃ folder name, Without '/' folder ∧ key = archivePath folder name ∧
      ((w.delivered mani delivery full taken removed s).started start).Landed (destPath stageName folder name) source := by
  have stage : s.stageName = stageName := (frame_stageName (merges_frame merged)).trans dedup.stage
  by_cases old : key ∉ full.folders.pairs.map fileKey ∨ (w.session.sourcePaths.find key).isSome
  · rw [merges_keep merged old] at recorded
    obtain ⟨folder,name,free,same,landed⟩ := dedup.landed key source recorded
    exact ⟨folder,name,free,same,landed_onward shipped_onward landed⟩
  · simp only [not_or,Decidable.not_not,Bool.not_eq_true,Option.isSome_eq_false_iff,Option.isNone_iff_eq_none] at old
    obtain ⟨pair,inside,rfl⟩ := mem_map.mp old.1
    have held := (Grouped.mem_pairs _).mp inside
    obtain ⟨path,found,before⟩ := merges_recorded (tidy_keys tidy) merged inside
    rcases before with known | ⟨unknown,canonical,real,now⟩
    · exact absurd (known.symm.trans old.2) nofun
    · -- The path was canonical already, so what is put on record is the path itself.
      obtain ⟨raw,rawReal⟩ := tidy.canonical _ _ found
      have same : canonical = path := by
        rw [settled raw path rawReal] at real
        exact (Option.some.inj real).symm
      rw [now,Option.some.injEq] at recorded
      rw [← recorded,same,← stage]
      exact ⟨pair.1,pair.2,staged_without (tidy.staged _ _ held),rfl,
        landed_fresh tidy separate merged named held found unknown⟩

theorem shipped_filed (merged : Merges host full.sourcePaths (w.opened mani) full.folders.pairs removed s)
    (held : s.folders.Holds folder name) : ∃ source, s.sourcePaths.find (archivePath folder name) = some source := by
  rcases (merges_folders merged).mp held with old | new
  · obtain ⟨source,found⟩ := dedup.filed folder name old
    exact ⟨source,merges_keep_some merged found⟩
  · obtain ⟨path,_,known | ⟨_,canonical,_,now⟩⟩ := merges_recorded (tidy_keys tidy) merged new
    · exact ⟨path,merges_keep_some merged known⟩
    · exact ⟨canonical,now⟩

end

theorem empty_lands (tidy : Tidy host m) (nothing : m.empty = true) : w.Lands stageName m := by
  intro folder name held
  obtain ⟨source,found⟩ := tidy.sourced folder name held
  have listed := (OrderedMap.find_mem (name,source) m.sourcePaths).mp found
  rw [isEmpty_iff.mp nothing] at listed
  cases listed

def Names (Args : Session → String → List DaemonArg → Prop) : Prop :=
  ∀ s stageName inst args, Args s (archiveFile stageName inst) args →
    DaemonArg.manifestName (archiveFile stageName inst) ∈ args

theorem sendTold_names : Names (SendTold app) := by
  rintro s stageName inst args rfl
  simp [sendArgs]

theorem execTold_names : Names (ExecTold app daemonArgs envVars) := by
  rintro s stageName inst args ⟨binaryName,rfl⟩
  have nonempty : archiveFile stageName inst ≠ "" := by
    intro empty
    have lists := congrArg String.toList empty
    simp [archiveFile] at lists
  simp [execArgs,nonempty]

theorem outcome_deduplicated (dedup : Deduplicated host stageName w) (settled : host.Settled) (names : Names Args)
    (separate : ∀ m, Entered w mani m synchronous → Unstraddled w.session.sourcePaths (filled host w calls m))
    (outcome : Outcome host w mani calls delivery Args synchronous true w') :
    Deduplicated host stageName w' ∧ ∀ m, Entered w mani m synchronous → w'.Lands stageName (filled host w calls m) := by
  have orderly := outcome_orderly dedup.orderly outcome
  cases outcome with
  | @emptied m sending owned present nothing =>
    refine ⟨⟨dedup.stage,orderly,dedup.filed,dedup.landed⟩,?_⟩
    intro m' entered
    have same := entered.present
    rw [present] at same
    cases same
    rw [entered.shipping sending] at nothing
    cases nothing
  | @started m all removed s' args entered added merged told =>
    have tidy := filled_tidy (w := w) calls (orderly_tidy dedup.orderly entered.owned entered.present)
    have named := names _ _ _ _ told
    refine ⟨⟨?_,orderly,?_,?_⟩,?_⟩
    · exact extended_stageName.trans ((frame_stageName (merges_frame merged)).trans dedup.stage)
    · intro folder name held
      have merges : s'.folders.Holds folder name := by simpa only [World.started,World.delivered,World.merged,extended_folders] using held
      simpa only [World.started,World.delivered,World.merged,extended_sourcePaths] using
        shipped_filed dedup tidy merged merges
    · intro key source recorded
      refine shipped_record dedup tidy settled (separate m entered) merged named ?_
      rwa [← extended_sourcePaths]
    · intro m' entered'
      have same := entered'.present
      rw [entered.present] at same
      cases same
      exact shipped_lands dedup tidy (separate m entered) merged named

theorem add_deduplicated (dedup : Deduplicated host stageName w) : Deduplicated host stageName (Call.next host app w (.add mani call)) := by
  have orderly := next_orderly app dedup.orderly (.add mani call)
  have moved := next_moves host app w (.add mani call)
  generalize Call.next host app w (.add mani call) = w' at moved orderly
  cases moved with
  | absent _ => exact dedup
  | added present => exact ⟨dedup.stage,orderly,dedup.filed,dedup.landed⟩

theorem shipment_lands {call : Call} (dedup : Deduplicated host stageName w) (settled : host.Settled)
    (ships : call.shipment = some mani) (returned : Returned (call.perform host app w)) (separate : ∀ m, w.manifests[mani]? = some m →
      Unstraddled w.session.sourcePaths (call.contents host app w m)) : Deduplicated host stageName (call.next host app w) ∧
    ∀ m, w.manifests[mani]? = some m → (call.next host app w).Lands stageName (call.contents host app w m) := by
  cases call with
  | createManifest | add mani call => cases ships
  | sendManifest delivery mani =>
    cases ships
    have outcome := ended_well sendManifest_outcome returned
    have owned := outcome_owned outcome
    obtain ⟨kept,lands⟩ := outcome_deduplicated dedup settled sendTold_names (fun m entered => by
      simpa only [Call.contents,Call.adds,entered.shipping rfl,Bool.false_eq_true,if_false]
        using separate m entered.present) outcome
    refine ⟨kept,fun m present => ?_⟩
    unfold Call.contents
    cases nothing : m.empty with
    | true => exact empty_lands (orderly_tidy dedup.orderly owned present) nothing
    | false => exact lands m ⟨owned,present,fun _ => nothing⟩
  | execManifest delivery mani daemon daemonArgs envVars =>
    cases ships
    have outcome := ended_well (execManifest_outcome host app delivery mani daemon daemonArgs envVars w) returned
    obtain ⟨kept,lands⟩ := outcome_deduplicated dedup settled execTold_names
      (fun m entered => separate m entered.present) outcome
    exact ⟨kept,fun m present => lands m ⟨outcome_owned outcome,present,nofun⟩⟩

theorem smooth_parts (smooth : Smooth host app w call) (ships : call.shipment = some mani) : Returned (call.perform host app w) ∧
      ∀ m, w.manifests[mani]? = some m → Unstraddled w.session.sourcePaths (call.contents host app w m) := by
  unfold Smooth at smooth
  simp only [ships] at smooth
  refine ⟨smooth.1,fun m present => ?_⟩
  simpa only [present] using smooth.2

theorem next_deduplicated (settled : host.Settled)
    (w : World) (call : Call) (dedup : Deduplicated host stageName w) (smooth : Smooth host app w call) :
    Deduplicated host stageName (call.next host app w) := by
  cases ships : call.shipment with
  | none =>
    cases call with
    | createManifest => exact ⟨dedup.stage,created_orderly dedup.orderly,dedup.filed,dedup.landed⟩
    | add mani call => exact add_deduplicated dedup
    | sendManifest delivery mani | execManifest delivery mani daemon daemonArgs envVars => cases ships
  | some mani =>
    obtain ⟨returned,separate⟩ := smooth_parts smooth ships
    exact (shipment_lands dedup settled ships returned separate).1

theorem start_deduplicated (app : App) (stageName wlmType : String) : Deduplicated host stageName (World.start app stageName wlmType) :=
  ⟨rfl,start_orderly app stageName wlmType,fun _ _ held => absurd held Grouped.holds_empty,
    fun key source found => by simp [World.start,Session.start] at found⟩

end Conveying

-- With every shipment smooth, each one leaves nothing of its manifest behind.
theorem reached_conveys (host : Host) (app : App) (stageName wlmType : String) (call : Call) (settled : host.Settled)
    (path : Reached (Smooth host app) (Call.next host app) (World.start app stageName wlmType) calls w)
    (smooth : Smooth host app w call) (ships : call.shipment = some mani) (present : w.manifests[mani]? = some m) :
    (call.next host app w).Conveys stageName (call.contents host app w m) := by
  have dedup := reached_invariant (start_deduplicated app stageName wlmType) (next_deduplicated settled) path
  obtain ⟨returned,separate⟩ := smooth_parts smooth ships
  exact lands_conveys ((shipment_lands dedup settled ships returned separate).2 m present)

def shippedBefore : List Call :=
  [.createManifest,.createManifest,.add 0 (.file "/a/x"),.sendManifest plainDelivery 0,.add 1 (.file "/a/x"),
    .add 1 (.file "/a/y")]

theorem reached_conveys_shipped_before :
    Smooth (plainHost fun _ => none) plainApp (plainRun (fun _ => none) shippedBefore) (.sendManifest plainDelivery 1) ∧
    ∃ m, (plainRun (fun _ => none) shippedBefore).manifests[1]? = some m ∧ m.folders.pairs = [("","x"),("","y")] ∧
      (plainRun (fun _ => none) (shippedBefore ++ [.sendManifest plainDelivery 1])).Conveys "stage"
        (Call.contents (plainHost fun _ => none) plainApp (plainRun (fun _ => none) shippedBefore) m (.sendManifest plainDelivery 1)) := by
  have path : Reached (Smooth (plainHost fun _ => none) plainApp) (Call.next (plainHost fun _ => none) plainApp)
      (World.start plainApp "stage" "wlm") shippedBefore _ := reached_run (by decide)
  refine ⟨by decide,_,rfl,by decide,?_⟩
  exact reached_conveys (plainHost fun _ => none) plainApp "stage" "wlm" (.sendManifest plainDelivery 1)
    (fun _ _ _ => rfl) path (by decide) rfl rfl

def oneFolderBefore : List Call :=
  [.createManifest,.createManifest,.add 0 (.file "/a/x"),.sendManifest plainDelivery 0,.add 1 (.file "/a/x"),
    .add 1 (.binary "/a/x" .Ignore)]

theorem other_folder_lost :
    AdmittedAlong (fun w call => call.shipment.isSome → Returned (call.perform (plainHost fun _ => none) plainApp w))
      (Call.next (plainHost fun _ => none) plainApp) (World.start plainApp "stage" "wlm")
      (oneFolderBefore ++ [.sendManifest plainDelivery 1]) ∧ ∀ m, (plainRun (fun _ => none) oneFolderBefore).manifests[1]? = some m →
      ¬ (plainRun (fun _ => none) (oneFolderBefore ++ [.sendManifest plainDelivery 1])).Conveys "stage"
        (Call.contents (plainHost fun _ => none) plainApp (plainRun (fun _ => none) oneFolderBefore) m
          (.sendManifest plainDelivery 1)) := by
  refine ⟨by decide,?_⟩
  intro m present conveys
  cases present
  obtain ⟨source,found,delivered⟩ := conveys "bin" "x" (by decide)
  cases found
  revert delivered
  decide

end CommonTools.Transfer
