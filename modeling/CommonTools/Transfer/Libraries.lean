import CommonTools.Transfer.Deduplication

namespace CommonTools.Transfer
open OrderedMaps Plans Programs Texts List World Grouped Call
open Manifest hiding inst

def Entry.path : Entry → String
  | .dir path => path
  | .link path _ => path
  | .file path _ => path

def Entry.source? : Entry → Option String
  | .dir _ => none
  | .link _ source => some source
  | .file _ source => some source

-- What a node has at a path: the archives are unpacked into the tool directory in
-- the order they arrive, a later entry over an earlier one.
def World.nodeFile (w : World) (toolPath path : String) : Option String :=
  (w.packages.flatMap Package.entries).reverse.findSome? fun entry =>
    if toolPath ++ "/" ++ entry.path = path then entry.source? else none

-- The loader takes the first directory of the search path that has the name.
def World.resolve (w : World) (toolPath ldLibraryPath name : String) : Option String :=
  (fields ':' ldLibraryPath).findSome? fun dir => w.nodeFile toolPath (dir ++ "/" ++ name)

def World.depsOf (w : World) (mani : Nat) : List Record :=
  (w.ledger.filter (·.1 = mani)).flatMap (·.2.deps)

-- The manifest gives the dependency's own file, and no override folder in front
-- of the place it is staged to has another.
def Unshadowed (w : World) (full : Manifest) (d : Record) : Prop :=
  full.sourcePaths.find d.name = some d.source ∧
  (full.folders.Holds (overrideFolder full.inst) d.name ∨
    ∀ m ∈ w.manifests, w.session.sourcePaths.find (archivePath (overrideFolder m.inst) d.name) = none ∨
      w.session.sourcePaths.find (archivePath (overrideFolder m.inst) d.name) = some d.source)

instance (w : World) (full : Manifest) (d : Record) : Decidable (Unshadowed w full d) :=
  inferInstanceAs (Decidable (_ ∧ _))

def Clear (host : Host) (app : App) (w : World) (call : Call) : Prop :=
  Smooth host app w call ∧
  match call with
  | .execManifest _ mani _ _ _ =>
    match w.manifests[mani]? with
    | none => True
    | some m => ∀ d ∈ w.depsOf mani ++ (gained host w (call.adds app w) m).flatMap (·.deps),
        Unshadowed w (filled host w (call.adds app w) m) d
  | _ => True

instance (host : Host) (app : App) (w : World) (call : Call) : Decidable (Clear host app w call) := by
  unfold Clear
  cases call with
  | execManifest delivery mani daemon daemonArgs envVars =>
    dsimp only
    generalize w.manifests[mani]? = found
    exact match found with
      | none => inferInstance
      | some _ => inferInstance
  | createManifest => infer_instance
  | add mani call => infer_instance
  | sendManifest delivery mani => infer_instance

theorem overrideFolder_other : overrideFolder inst ≠ "" ∧ overrideFolder inst ≠ "bin" ∧ overrideFolder inst ≠ "lib" := by
  have long : (overrideFolder inst).toList.length ≥ 4 := by
    simp only [overrideFolder,String.toList_append,length_append]
    change 4 + _ ≥ 4
    omega
  refine ⟨?_,?_,?_⟩ <;> · intro same; rw [same] at long; revert long; decide

def Named (m : Manifest) : Prop :=
  ∀ name, m.folders.Holds (overrideFolder m.inst) name → m.ldLibraryOverrideFolder = overrideFolder m.inst

section Naming
variable {host : Host} {shipped : PathMap} {m : Manifest} {inst : Nat}

theorem record_named (other : r.folder ≠ overrideFolder m.inst) (named : Named m) : Named (m.record r) := by
  intro name held
  rcases holds_add.mp held with ⟨same,_⟩ | old
  · exact absurd same.symm other
  · exact named name old

theorem named_assembled : Assembled host shipped inst
    (fun effects => ∀ m : Manifest, m.inst = inst → Named m → Named (effects.foldl apply m)) where
  gathers := by
    refine ⟨fun m _ named => named,?_⟩
    intro one two first second m same named
    rw [foldl_append]
    exact second _ ((applied_inst one m).trans same) (first m same named)
  common := by
    rintro r common _ _ m rfl named
    refine record_named ?_ named
    obtain ⟨empty,bin,lib⟩ := overrideFolder_other
    rcases common with here | here | here <;> rw [here]
    · exact empty.symm
    · exact bin.symm
    · exact lib.symm
  override := by
    rintro r _ _ _ m rfl _ name _
    have inst : (m.useOverride.record r).inst = m.inst := apply_inst m .overridden
    change m.useOverride.ldLibraryOverrideFolder = overrideFolder (m.useOverride.record r).inst
    rw [inst,useOverride_folder]
  named := by
    rintro m rfl _ name _
    change m.useOverride.ldLibraryOverrideFolder = overrideFolder m.useOverride.inst
    have inst : m.useOverride.inst = m.inst := apply_inst m .overridden
    rw [inst,useOverride_folder]

theorem filled_named (named : Named m) : Named (filled host w calls m) := by
  have whole := row_assembled (named_assembled : Assembled host w.session.sourcePaths m.inst _) m.isValid calls
  exact whole m rfl named

theorem applied_holds (effects : List Effect) (held : m.folders.Holds folder name) : (effects.foldl apply m).folders.Holds folder name := by
  induction effects generalizing m with
  | nil => exact held
  | cons e rest ih =>
    apply ih
    cases e with
    | recorded r => exact holds_add.mpr (.inr held)
    | overridden => simp only [apply,useOverride]; split <;> exact held

theorem applied_recorded (inside : r ∈ records effects) : (effects.foldl apply m).folders.Holds r.folder r.name := by
  induction effects generalizing m with
  | nil => cases inside
  | cons e rest ih =>
    cases e with
    | overridden => exact ih inside
    | recorded other =>
      rcases mem_cons.mp inside with rfl | later
      · exact applied_holds rest (holds_add.mpr (.inl ⟨rfl,rfl⟩))
      · exact ih later

end Naming

def searchPath (stagePath : String) : List Nat → String
  | [] => stagePath ++ "/lib"
  | inst :: rest => stagePath ++ "/" ++ overrideFolder inst ++ ":" ++ searchPath stagePath rest

-- Instances that no manifest still to be shipped can have.
def World.Past (w : World) (insts : List Nat) : Prop :=
  ∀ inst ∈ insts, (0 < inst ∧ inst ≤ w.manifests.length) ∧ ∀ mani ∈ w.session.manifests, mani + 1 ≠ inst

theorem past_created (past : World.Past w insts) : w.created.Past insts := by
  intro inst inside
  obtain ⟨bound,unowned⟩ := past inst inside
  have length : w.created.manifests.length = w.manifests.length + 1 := by simp [created]
  rw [length]
  refine ⟨⟨bound.1,Nat.le_succ_of_le bound.2⟩,?_⟩
  intro mani owned
  rcases mem_cons.mp owned with rfl | old
  · omega
  · exact unowned mani old

theorem past_of {w w' : World} (past : w.Past insts) (length : w'.manifests.length = w.manifests.length)
    (owned : w'.session.manifests ⊆ w.session.manifests) : w'.Past insts := by
  intro inst inside
  rw [length]
  exact ⟨(past inst inside).1,fun mani still => (past inst inside).2 mani (owned still)⟩

-- The dependencies taken into a manifest are where addLibrary puts them.
structure Linking (ledger : List (Nat × Added)) (mani : Nat) (m : Manifest) : Prop where
  named : Named m
  held : ∀ row ∈ ledger, row.1 = mani → ∀ d ∈ row.2.deps,
    m.folders.Holds d.folder d.name ∧ (d.folder = "lib" ∨ d.folder = overrideFolder m.inst)

structure Linked (app : App) (stageName : String) (w : World) : Prop where
  stagePath : w.session.stagePath = app.toolPath ++ "/" ++ stageName
  counted : w.session.manifestCnt = w.manifests.length
  numbered : ∀ mani m, w.manifests[mani]? = some m → m.inst = mani + 1
  rows : ∀ row ∈ w.ledger, row.1 < w.manifests.length
  searched : ∃ insts, w.session.ldLibraryPath = searchPath w.session.stagePath insts ∧ w.Past insts
  linking : ∀ mani ∈ w.session.manifests, ∀ m, w.manifests[mani]? = some m → Linking w.ledger mani m

section Linking
variable {host : Host} {app : App} {w w' : World} {m m' : Manifest} {mani : Nat} {stageName : String}
  {more : List Added}

theorem filled_linking (linking : Linking w.ledger mani m) :
    Linking (w.ledger ++ (gained host w calls m).map (mani,·)) mani (filled host w calls m) := by
  refine ⟨filled_named linking.named,?_⟩
  intro row inside own d dep
  have inst : (filled host w calls m).inst = m.inst := applied_inst _ m
  rw [inst]
  rcases mem_append.mp inside with old | new
  · obtain ⟨held,place⟩ := linking.held row old own d dep
    exact ⟨applied_holds _ held,place⟩
  · obtain ⟨added,taken,rfl⟩ := mem_map.mp new
    obtain ⟨call,_,ended,among⟩ := done_mem taken
    refine ⟨applied_recorded ?_,plan_deps ended d dep⟩
    have listed : d ∈ records (w.plan host m call).effects := by
      rw [plan_records ended]
      exact mem_cons_of_mem _ dep
    obtain ⟨e,present,isRecord⟩ := mem_filterMap.mp listed
    exact mem_filterMap.mpr ⟨e,among present,isRecord⟩

theorem linking_other (linking : Linking w.ledger other m) (differs : other ≠ mani) : Linking (w.ledger ++ more.map (mani,·)) other m := by
  refine ⟨linking.named,?_⟩
  intro row inside own
  rcases mem_append.mp inside with old | new
  · exact linking.held row old own
  · obtain ⟨added,_,rfl⟩ := mem_map.mp new
    exact absurd own.symm differs

section
variable (linked : Linked app stageName w) (present : w.manifests[mani]? = some m)
include linked present

theorem grow_rows : ∀ row ∈ w.ledger ++ more.map (mani,·), row.1 < w.manifests.length := by
  intro row inside
  rcases mem_append.mp inside with old | new
  · exact linked.rows row old
  · obtain ⟨added,_,rfl⟩ := mem_map.mp new
    exact (List.getElem?_eq_some_iff.mp present).1

theorem set_numbered (inst : m'.inst = m.inst) : ∀ other m'', (w.manifests.set mani m')[other]? = some m'' → m''.inst = other + 1 := by
  intro other m'' found
  rw [getElem?_set] at found
  split at found
  · rename_i same
    subst same
    split at found
    · cases found; exact inst.trans (linked.numbered mani m present)
    · cases found
  · exact linked.numbered other m'' found

theorem grow_linked : Linked app stageName (w.grow mani (filled host w calls m) (gained host w calls m)) := by
  have length : (w.grow mani (filled host w calls m) (gained host w calls m)).manifests.length = w.manifests.length := length_set
  refine ⟨linked.stagePath,linked.counted.trans length.symm,?_,?_,?_,?_⟩
  · exact set_numbered linked present (applied_inst _ m)
  · rw [length]; exact grow_rows linked present
  · obtain ⟨insts,path,past⟩ := linked.searched
    exact ⟨insts,path,past_of past length (List.Subset.refl _)⟩
  · intro other owned m' found
    by_cases same : other = mani
    · subst same
      rw [grow_at _ _ present] at found
      cases found
      exact filled_linking (linked.linking other owned m present)
    · have unchanged : w.manifests[other]? = some m' := by simpa [grow,getElem?_set,Ne.symm same] using found
      exact linking_other (linked.linking other owned m' unchanged) same

end

theorem past_own (linked : Linked app stageName w) (distinct : w.session.manifests.Nodup)
    (present : w.manifests[mani]? = some m) (length : w'.manifests.length = w.manifests.length)
    (handles : w'.session.manifests = w.session.manifests.erase mani) (past : w.Past insts) : w'.Past (m.inst :: insts) := by
  have bound : mani < w.manifests.length := (List.getElem?_eq_some_iff.mp present).1
  intro inst inside
  rcases mem_cons.mp inside with rfl | old
  · rw [linked.numbered mani m present,length,handles]
    refine ⟨⟨Nat.succ_pos _,bound⟩,fun other owned same => ?_⟩
    rw [distinct.mem_erase_iff] at owned
    exact owned.1 (by omega)
  · exact past_of past length (by rw [handles]; exact erase_subset) inst old

theorem release_linked (m' : Manifest) (more : List Added) (linked : Linked app stageName w) (distinct : w.session.manifests.Nodup)
    (present : w.manifests[mani]? = some m) (inst : m'.inst = m.inst)
    (stage : w'.session.stagePath = w.session.stagePath) (count : w'.session.manifestCnt = w.session.manifestCnt)
    (handles : w'.session.manifests = w.session.manifests.erase mani)
    (manifests : w'.manifests = w.manifests.set mani m') (ledger : w'.ledger = w.ledger ++ more.map (mani,·))
    (library : w'.session.ldLibraryPath = w.session.ldLibraryPath ∨
      w'.session.ldLibraryPath = w.session.stagePath ++ "/" ++ overrideFolder m.inst ++ ":" ++ w.session.ldLibraryPath) :
    Linked app stageName w' := by
  have length : w'.manifests.length = w.manifests.length := by rw [manifests]; exact length_set
  refine ⟨stage.trans linked.stagePath,?_,?_,?_,?_,?_⟩
  · rw [count,length]; exact linked.counted
  · rw [manifests]; exact set_numbered linked present inst
  · rw [length,ledger]; exact grow_rows linked present
  · obtain ⟨insts,path,past⟩ := linked.searched
    have own := past_own linked distinct present length handles past
    rcases library with same | longer
    · exact ⟨insts,by rw [same,stage,path],fun inst inside => own inst (mem_cons_of_mem _ inside)⟩
    · exact ⟨m.inst :: insts,by rw [longer,stage,path]; rfl,own⟩
  · intro other owned m'' found
    rw [handles,distinct.mem_erase_iff] at owned
    have unchanged : w.manifests[other]? = some m'' := by simpa [manifests,getElem?_set,Ne.symm owned.1] using found
    rw [ledger]
    exact linking_other (linked.linking other owned.2 m'' unchanged) owned.1

theorem created_linked (linked : Linked app stageName w) (orderly : Orderly host w) : Linked app stageName w.created := by
  have length : w.created.manifests.length = w.manifests.length + 1 := by simp [created]
  refine ⟨linked.stagePath,?_,?_,?_,?_,?_⟩
  · rw [length,← linked.counted]; rfl
  · intro mani m found
    simp only [created,getElem?_append] at found
    split at found
    · exact linked.numbered mani m found
    · have here : mani = w.manifests.length := by
        have bound := (List.getElem?_eq_some_iff.mp found).1
        simp only [List.length_singleton] at bound
        omega
      subst here
      simp only [Nat.sub_self,getElem?_cons_zero,Option.some.injEq] at found
      rw [← found,← linked.counted]
      rfl
  · intro row inside
    rw [length]
    exact Nat.lt_succ_of_lt (linked.rows row inside)
  · obtain ⟨insts,path,past⟩ := linked.searched
    exact ⟨insts,path,past_created past⟩
  · intro mani owned m found
    rcases mem_cons.mp owned with rfl | old
    · have fresh : m = fresh (w.session.manifestCnt + 1) := by simpa [created] using found.symm
      subst fresh
      refine ⟨fun name held => absurd held holds_empty,?_⟩
      intro row inside own
      have bound := linked.rows row inside
      omega
    · obtain ⟨first,present,_⟩ := orderly.owned mani old
      have bound := (List.getElem?_eq_some_iff.mp present).1
      rw [created,List.getElem?_append_left bound] at found
      exact linked.linking mani old m found

theorem extended_path {s : Session} {m : Manifest} :
    (s.extended m.ldLibraryOverrideFolder).ldLibraryPath = s.ldLibraryPath ∧ m.ldLibraryOverrideFolder = "" ∨
    (s.extended m.ldLibraryOverrideFolder).ldLibraryPath = s.stagePath ++ "/" ++ overrideFolder m.inst ++ ":" ++ s.ldLibraryPath ∧
      m.ldLibraryOverrideFolder = overrideFolder m.inst := by
  unfold Session.extended
  split
  · rename_i named
    have same := m.overrideNamed.resolve_left named
    exact .inr ⟨by rw [same],same⟩
  · rename_i unnamed
    exact .inl ⟨rfl,not_not.mp unnamed⟩

theorem extended_frame {s : Session} : (s.extended libPath).stagePath = s.stagePath ∧ (s.extended libPath).manifestCnt = s.manifestCnt := by
  unfold Session.extended; split <;> exact ⟨rfl,rfl⟩

theorem outcome_linked (linked : Linked app stageName w) (distinct : w.session.manifests.Nodup)
    (outcome : Outcome host w mani calls delivery Args synchronous true w') : Linked app stageName w' := by
  cases outcome with
  | @emptied m sending owned present nothing =>
    exact release_linked m.finalize [] linked distinct present rfl rfl rfl rfl rfl rfl (.inl rfl)
  | @started m all removed s' args entered added merged told =>
    have frame := merges_frame merged
    have stage : s'.stagePath = w.session.stagePath := by rw [frame]; rfl
    have count : s'.manifestCnt = w.session.manifestCnt := by rw [frame]; rfl
    have path : s'.ldLibraryPath = w.session.ldLibraryPath := by rw [frame]; rfl
    have inst : (filled host w calls m).inst = m.inst := applied_inst _ m
    obtain ⟨stage',count'⟩ := extended_frame
    refine release_linked (kept removed (filled host w calls m)) (gained host w calls m) linked distinct
      entered.present ((kept_inst removed _).trans inst) (stage'.trans stage) (count'.trans count)
      (extended_manifests.trans (frame_manifests frame)) rfl rfl ?_
    rw [← inst,← stage,← path]
    exact extended_path.imp And.left And.left

end Linking

structure Mirrored (host : Host) (app : App) (stageName : String) (w : World) : Prop where
  dedup : Deduplicated host stageName w
  linked : Linked app stageName w
  mirrored : ∀ package ∈ w.packages, ∀ entry ∈ package.entries, ∀ folder name source, Without '/' folder →
    entry.Carries (destPath stageName folder name) source →
      w.session.sourcePaths.find (archivePath folder name) = some source

theorem discarded_find (removed : List (String × String)) (m : Manifest)
    (found : (removed.foldl discard m).sourcePaths.find name = some source) : m.sourcePaths.find name = some source := by
  induction removed generalizing m with
  | nil => exact found
  | cons pair rest ih =>
    have before := ih (m.discard pair) found
    simp only [Manifest.discard,OrderedMap.find_erase] at before
    split at before
    · cases before
    · exact before

theorem discarded_holds (removed : List (String × String)) (m : Manifest) : (removed.foldl discard m).folders.Holds folder name ↔
      m.folders.Holds folder name ∧ (folder,name) ∉ removed := by
  induction removed generalizing m with
  | nil => simp
  | cons pair rest ih =>
    rw [foldl_cons,ih (m.discard pair)]
    simp only [Manifest.discard,holds_drop,mem_cons,not_or,Prod.ext_iff]
    tauto

theorem findSome_agree {items : List α} {f g : α → Option β} (agree : ∀ item ∈ items, f item = g item) :
    items.findSome? f = items.findSome? g := by
  induction items with
  | nil => rfl
  | cons head rest ih =>
    rw [findSome?_cons,findSome?_cons,agree head mem_cons_self,
      ih fun item inside => agree item (mem_cons_of_mem _ inside)]

theorem findSome_last (before : ∀ item ∈ front, f item = none ∨ f item = some hit)
    (found : f last = some hit) : (front ++ [last]).findSome? f = some hit := by
  induction front with
  | nil => simp [found]
  | cons head rest ih =>
    rw [cons_append,findSome?_cons]
    rcases before head mem_cons_self with none | same
    · rw [none]; exact ih fun item inside => before item (mem_cons_of_mem _ inside)
    · rw [same]

section Mirroring
variable {host : Host} {app : App} {w w' : World} {m full : Manifest} {mani : Nat} {stageName : String}

theorem shipped_mirrored (mirror : Mirrored host app stageName w) (settled : host.Settled) (tidy : Tidy host full)
    (merged : Merges host full.sourcePaths (w.opened mani) full.folders.pairs removed s)
    (inside : entry ∈ shipEntries delivery s.stageName (kept removed full)) (free : Without '/' folder)
    (carries : entry.Carries (destPath stageName folder name) source) : s.sourcePaths.find (archivePath folder name) = some source := by
  have stage : s.stageName = stageName := (frame_stageName (merges_frame merged)).trans mirror.dedup.stage
  obtain ⟨folder',name',held,found,path⟩ := carries_fileEntry inside carries
  obtain ⟨fullHeld,unremoved⟩ := (discarded_holds removed full.finalize).mp held
  have fullFound : full.sourcePaths.find name' = some source := discarded_find removed full.finalize found
  rw [stage] at path
  obtain ⟨rfl,rfl⟩ := destPath_inj free (staged_without (tidy.staged _ _ fullHeld)) path
  have listed := (mem_pairs full.folders).mpr fullHeld
  obtain ⟨source',found',before⟩ := merges_recorded (tidy_keys tidy) merged listed
  rw [fullFound] at found'
  cases found'
  rcases before with known | ⟨_,canonical,real,now⟩
  · have gone := (merges_removed (tidy_keys tidy) merged (folder,name)).mpr ⟨listed,by rw [known]; rfl⟩
    exact absurd gone unremoved
  · obtain ⟨raw,rawReal⟩ := tidy.canonical _ _ fullFound
    rw [settled raw source rawReal] at real
    cases real
    exact now

theorem started_mirrored (mirror : Mirrored host app stageName w) (settled : host.Settled)
    (kept : Deduplicated host stageName w') (linked : Linked app stageName w')
    (outcome : Outcome host w mani calls delivery Args synchronous true w') : Mirrored host app stageName w' := by
  refine ⟨kept,linked,?_⟩
  cases outcome with
  | emptied sending owned present nothing => exact mirror.mirrored
  | @started m all removed s' args entered added merged told =>
    have tidy := filled_tidy (w := w) calls (orderly_tidy mirror.dedup.orderly entered.owned entered.present)
    intro package shipped entry inside folder name source free carries
    have record : s'.sourcePaths.find (archivePath folder name) = some source := by
      rcases mem_append.mp shipped with old | new
      · exact merges_keep_some merged (mirror.mirrored package old entry inside folder name source free carries)
      · cases mem_singleton.mp new
        exact shipped_mirrored mirror settled tidy merged inside free carries
    simpa only [World.started,World.delivered,World.merged,extended_sourcePaths] using record

theorem next_mirrored (settled : host.Settled) {w : World} {call : Call} (mirror : Mirrored host app stageName w)
    (smooth : Smooth host app w call) : Mirrored host app stageName (call.next host app w) := by
  have kept := next_deduplicated settled w call mirror.dedup smooth
  cases call with
  | createManifest => exact ⟨kept,created_linked mirror.linked mirror.dedup.orderly,mirror.mirrored⟩
  | add mani call =>
    have moved := next_moves host app w (.add mani call)
    generalize next host app w (.add mani call) = w' at moved kept
    cases moved with
    | absent _ => exact mirror
    | added present => exact ⟨kept,grow_linked mirror.linked present,mirror.mirrored⟩
  | sendManifest delivery mani =>
    have outcome := ended_well sendManifest_outcome (smooth_parts smooth rfl).1
    exact started_mirrored mirror settled kept (outcome_linked mirror.linked mirror.dedup.orderly.distinct outcome) outcome
  | execManifest delivery mani daemon daemonArgs envVars =>
    have outcome := ended_well (execManifest_outcome host app delivery mani daemon daemonArgs envVars w)
      (smooth_parts smooth rfl).1
    exact started_mirrored mirror settled kept (outcome_linked mirror.linked mirror.dedup.orderly.distinct outcome) outcome

theorem start_mirrored {host : Host} {app : App} {stageName wlmType : String} :
    Mirrored host app stageName (start app stageName wlmType) := by
  refine ⟨start_deduplicated app stageName wlmType,⟨rfl,rfl,?_,?_,⟨[],rfl,?_⟩,?_⟩,?_⟩
  · intro mani m found; simp [start] at found
  · intro row inside; cases inside
  · intro inst inside; cases inside
  · intro mani owned; cases owned
  · intro package shipped; cases shipped

theorem carries_parts {entry : Entry} : entry.Carries path source ↔ entry.path = path ∧ entry.source? = some source := by
  cases entry <;> simp [Entry.Carries,Entry.path,Entry.source?]

theorem staged_path (linked : Linked app stageName w) : app.toolPath ++ "/" ++ path = w.session.stagePath ++ "/" ++ folder ++ "/" ++ name ↔
      path = destPath stageName folder name := by
  rw [linked.stagePath]
  constructor
  · intro same
    have fronts : app.toolPath ++ "/" ++ path = app.toolPath ++ "/" ++ destPath stageName folder name := by
      simpa only [destPath,String.append_assoc] using same
    exact append_left_inj fronts
  · rintro rfl
    simp only [destPath,String.append_assoc]

theorem nodeFile_record (mirror : Mirrored host app stageName w) (free : Without '/' folder) :
    w.nodeFile app.toolPath (w.session.stagePath ++ "/" ++ folder ++ "/" ++ name) =
      w.session.sourcePaths.find (archivePath folder name) := by
  unfold nodeFile
  simp only [staged_path mirror.linked]
  cases hit : (w.packages.flatMap Package.entries).reverse.findSome? fun entry =>
      if entry.path = destPath stageName folder name then entry.source? else none with
  | some source =>
    obtain ⟨entry,inside,shown⟩ := exists_of_findSome?_eq_some hit
    obtain ⟨package,shipped,listed⟩ := mem_flatMap.mp (mem_reverse.mp inside)
    split at shown
    · rename_i here
      exact (mirror.mirrored package shipped entry listed folder name source free
        (carries_parts.mpr ⟨here,shown⟩)).symm
    · cases shown
  | none =>
    cases known : w.session.sourcePaths.find (archivePath folder name) with
    | none => rfl
    | some source =>
      -- What is on record has landed, so the search can not have come up empty.
      obtain ⟨folder',name',free',key,landed⟩ := mirror.dedup.landed _ _ known
      obtain ⟨rfl,rfl⟩ := archivePath_inj free free' key
      obtain ⟨package,shipped,entry,listed,carries⟩ := landed_delivered landed
      obtain ⟨here,shown⟩ := carries_parts.mp carries
      have missed := findSome?_eq_none_iff.mp hit entry
        (mem_reverse.mpr (mem_flatMap.mpr ⟨package,shipped,listed⟩))
      rw [if_pos here,shown] at missed
      cases missed

def searchFolders (insts : List Nat) : List String := insts.map overrideFolder ++ ["lib"]

theorem searchPath_fields (plain : Without ':' stagePath) :
    fields ':' (searchPath stagePath insts) = (searchFolders insts).map fun folder => stagePath ++ "/" ++ folder := by
  have tidy : ∀ folder, Without ':' folder → Without ':' (stagePath ++ "/" ++ folder) :=
    fun folder free => without_append.mpr ⟨without_append.mpr ⟨plain,by decide⟩,free⟩
  induction insts with
  | nil =>
    change fields ':' (stagePath ++ "/lib") = [stagePath ++ "/" ++ "lib"]
    rw [fields_single (without_append.mpr ⟨plain,by decide⟩),String.append_assoc]
    rfl
  | cons inst rest ih =>
    have named : Without ':' (overrideFolder inst) := without_append.mpr ⟨by decide,without_number rfl⟩
    have split := fields_joined (tidy _ named) (searchPath stagePath rest)
    rwa [ih] at split

theorem searchFolders_without (inside : folder ∈ searchFolders insts) : Without '/' folder := by
  rcases mem_append.mp inside with override | lib
  · obtain ⟨inst,_,rfl⟩ := mem_map.mp override
    exact overrideFolder_without
  · cases mem_singleton.mp lib; decide

theorem resolve_record (mirror : Mirrored host app stageName w) (plain : Without ':' w.session.stagePath) :
    w.resolve app.toolPath (searchPath w.session.stagePath insts) name =
      (searchFolders insts).findSome? fun folder => w.session.sourcePaths.find (archivePath folder name) := by
  unfold resolve
  rw [searchPath_fields plain,findSome?_map]
  exact findSome_agree fun folder inside => nodeFile_record mirror (searchFolders_without inside)

structure Stays (first : World) (insts : List Nat) (w : World) : Prop where
  stage : w.session.stagePath = first.session.stagePath
  past : w.Past insts
  same : ∀ inst ∈ insts, ∀ name, w.session.sourcePaths.find (archivePath (overrideFolder inst) name) =
    first.session.sourcePaths.find (archivePath (overrideFolder inst) name)
  grown : ∀ key source, first.session.sourcePaths.find key = some source → w.session.sourcePaths.find key = some source

theorem past_key (tidy : Tidy host full) (other : full.inst ≠ inst) :
    archivePath (overrideFolder inst) name ∉ full.folders.pairs.map fileKey := by
  intro inside
  obtain ⟨pair,listed,key⟩ := mem_map.mp inside
  have staged := tidy.staged pair.1 pair.2 ((mem_pairs _).mp listed)
  obtain ⟨here,_⟩ := archivePath_inj (staged_without staged) overrideFolder_without key
  obtain ⟨empty,bin,lib⟩ := overrideFolder_other
  rw [here] at staged
  rcases staged with same | same | same | same
  · exact empty same
  · exact bin same
  · exact lib same
  · exact other (number_inj (append_left_inj same)).symm

theorem outcome_stays (mirror : Mirrored host app stageName w) (stays : Stays first insts w)
    (outcome : Outcome host w mani calls delivery Args synchronous true w') : Stays first insts w' := by
  cases outcome with
  | emptied sending owned present nothing => exact ⟨stays.stage,past_of stays.past length_set erase_subset,stays.same,stays.grown⟩
  | @started m all removed s' args entered added merged told =>
    have frame := merges_frame merged
    have tidy := filled_tidy (w := w) calls (orderly_tidy mirror.dedup.orderly entered.owned entered.present)
    have inst : (filled host w calls m).inst = mani + 1 := (applied_inst _ m).trans (mirror.linked.numbered mani m entered.present)
    have record : ((w.delivered mani delivery (filled host w calls m) (gained host w calls m) removed s').started
        ⟨args,synchronous⟩).session.sourcePaths = s'.sourcePaths := extended_sourcePaths
    refine ⟨?_,past_of stays.past length_set ?_,?_,?_⟩
    · have stage : s'.stagePath = w.session.stagePath := by rw [frame]; rfl
      exact extended_frame.1.trans (stage.trans stays.stage)
    · intro other still
      have still' : other ∈ s'.manifests := extended_manifests ▸ still
      rw [frame_manifests frame] at still'
      exact mem_of_mem_erase still'
    · intro inst' inside name
      rw [record,merges_keep merged (.inl (past_key tidy ?_))]
      · exact stays.same inst' inside name
      · rw [inst]; exact (stays.past inst' inside).2 mani entered.owned
    · intro key source known
      rw [record]
      exact merges_keep_some merged (stays.grown key source known)

theorem next_stays (mirror : Mirrored host app stageName w) (stays : Stays first insts w)
    (smooth : Smooth host app w call) : Stays first insts (call.next host app w) := by
  cases call with
  | createManifest => exact ⟨stays.stage,past_created stays.past,stays.same,stays.grown⟩
  | add mani call =>
    have moved := next_moves host app w (.add mani call)
    generalize next host app w (.add mani call) = w' at moved
    cases moved with
    | absent _ => exact stays
    | added present => exact ⟨stays.stage,past_of stays.past length_set (List.Subset.refl _),stays.same,stays.grown⟩
  | sendManifest delivery mani =>
    exact outcome_stays mirror stays
      (ended_well sendManifest_outcome (smooth_parts smooth rfl).1)
  | execManifest delivery mani daemon daemonArgs envVars =>
    exact outcome_stays mirror stays
      (ended_well (execManifest_outcome host app delivery mani daemon daemonArgs envVars w) (smooth_parts smooth rfl).1)

theorem shipped_source (settled : host.Settled) (tidy : Tidy host full)
    (merged : Merges host full.sourcePaths s full.folders.pairs removed s') (held : full.folders.Holds folder name)
    (found : full.sourcePaths.find name = some source) : s'.sourcePaths.find (archivePath folder name) = some source := by
  obtain ⟨path,found',before⟩ := merges_recorded (tidy_keys tidy) merged ((mem_pairs _).mpr held)
  rw [found] at found'
  cases found'
  rcases before with known | ⟨_,canonical,real,now⟩
  · exact merges_keep_some merged known
  · obtain ⟨raw,rawReal⟩ := tidy.canonical _ _ found
    rw [settled raw source rawReal] at real
    cases real
    exact now

def Finds (w : World) (insts : List Nat) (d : Record) : Prop :=
  (∃ inst rest, insts = inst :: rest ∧
    w.session.sourcePaths.find (archivePath (overrideFolder inst) d.name) = some d.source) ∨
  ((∀ inst ∈ insts, w.session.sourcePaths.find (archivePath (overrideFolder inst) d.name) = none ∨
      w.session.sourcePaths.find (archivePath (overrideFolder inst) d.name) = some d.source) ∧
    w.session.sourcePaths.find (archivePath "lib" d.name) = some d.source)

theorem finds_resolves (finds : Finds first insts d) (stays : Stays first insts w)
    (mirror : Mirrored host app stageName w) (plain : Without ':' w.session.stagePath) :
    w.resolve app.toolPath (searchPath w.session.stagePath insts) d.name = some d.source := by
  rw [resolve_record mirror plain,searchFolders]
  rcases finds with ⟨inst,rest,rfl,found⟩ | ⟨before,found⟩
  · rw [map_cons,cons_append,findSome?_cons,stays.same inst mem_cons_self,found]
  · refine findSome_last ?_ (stays.grown _ _ found)
    intro folder inside
    obtain ⟨inst,listed,rfl⟩ := mem_map.mp inside
    rw [stays.same inst listed]
    exact before inst listed

theorem past_manifest (linked : Linked app stageName w) (past : w.Past insts) (inside : inst ∈ insts) :
    ∃ m ∈ w.manifests, m.inst = inst := by
  obtain ⟨⟨positive,bound⟩,_⟩ := past inst inside
  obtain ⟨m,found⟩ : ∃ m, w.manifests[inst - 1]? = some m := ⟨_,getElem?_eq_getElem (by omega)⟩
  refine ⟨m,mem_of_getElem? found,?_⟩
  rw [linked.numbered _ _ found]
  omega

def onPath (full : Manifest) (insts : List Nat) : List Nat :=
  if full.ldLibraryOverrideFolder = "" then insts else full.inst :: insts

theorem merged_finds (mirror : Mirrored host app stageName w) (settled : host.Settled) (tidy : Tidy host full)
    (merged : Merges host full.sourcePaths (w.opened mani) full.folders.pairs removed s')
    (past : w.Past insts) (owned : mani ∈ w.session.manifests) (number : full.inst = mani + 1) (named : Named full)
    (own : ∃ m ∈ w.manifests, m.inst = full.inst)
    (held : full.folders.Holds d.folder d.name) (place : d.folder = "lib" ∨ d.folder = overrideFolder full.inst)
    (clear : Unshadowed w full d) (record : w'.session.sourcePaths = s'.sourcePaths) : Finds w' (onPath full insts) d := by
  obtain ⟨found,unshadowed⟩ := clear
  unfold Finds onPath
  rw [record]
  by_cases override : full.folders.Holds (overrideFolder full.inst) d.name
  · have name := named d.name override
    rw [if_neg (by rw [name]; exact overrideFolder_other.1)]
    exact .inl ⟨full.inst,insts,rfl,shipped_source settled tidy merged override found⟩
  · have lib : d.folder = "lib" := place.resolve_right fun here => override (here ▸ held)
    have others := unshadowed.resolve_left override
    refine .inr ⟨?_,shipped_source settled tidy merged (lib ▸ held) found⟩
    have ownKey : archivePath (overrideFolder full.inst) d.name ∉ full.folders.pairs.map fileKey := by
      intro inside
      obtain ⟨pair,listed,key⟩ := mem_map.mp inside
      have staged := tidy.staged pair.1 pair.2 ((mem_pairs _).mp listed)
      obtain ⟨folder,name⟩ := archivePath_inj (staged_without staged) overrideFolder_without key
      exact override (folder ▸ name ▸ (mem_pairs _).mp listed)
    have general : ∀ inst, (∃ m ∈ w.manifests, m.inst = inst) →
        archivePath (overrideFolder inst) d.name ∉ full.folders.pairs.map fileKey →
        s'.sourcePaths.find (archivePath (overrideFolder inst) d.name) = none ∨
          s'.sourcePaths.find (archivePath (overrideFolder inst) d.name) = some d.source := by
      rintro inst ⟨m,listed,rfl⟩ free
      rw [merges_keep merged (.inl free)]
      exact others m listed
    have earlier : ∀ inst ∈ insts, _ := fun inst inside => general inst (past_manifest mirror.linked past inside)
      (past_key tidy (by rw [number]; exact (past inst inside).2 mani owned))
    split
    · exact earlier
    · intro inst inside
      rcases mem_cons.mp inside with rfl | old
      · exact general full.inst own ownKey
      · exact earlier inst old

theorem searchPath_ne : searchPath stagePath insts ≠ "" := by
  intro empty
  have lists := congrArg String.toList empty
  cases insts <;> simp [searchPath] at lists

theorem told_path (told : ExecTold app daemonArgs envVars s name args) (nonempty : s.ldLibraryPath ≠ "") {value : String} :
    DaemonArg.ldLibraryPath value ∈ args ↔ value = s.ldLibraryPath := by
  obtain ⟨binaryName,rfl⟩ := told
  constructor
  · cases daemonArgs <;> simpa [execArgs,commonArgs,nonempty] using inside
  · rintro rfl
    simp [execArgs,nonempty]

theorem depsOf_more {more : List Added} (ledger : w'.ledger = w.ledger ++ more.map (mani,·)) :
    w'.depsOf mani = w.depsOf mani ++ more.flatMap (·.deps) := by
  have own : (more.map (mani,·)).filter (fun row => decide (row.1 = mani)) = more.map (mani,·) := by
    rw [filter_eq_self]
    intro row inside
    obtain ⟨added,_,rfl⟩ := mem_map.mp inside
    simp
  unfold depsOf
  rw [ledger,filter_append,flatMap_append,own,flatMap_map]

theorem outcome_finds (mirror : Mirrored host app stageName w) (settled : host.Settled)
    (outcome : Outcome host w mani calls delivery Args false true w') (clear : ∀ m, w.manifests[mani]? = some m →
      ∀ d ∈ w.depsOf mani ++ (gained host w calls m).flatMap (·.deps), Unshadowed w (filled host w calls m) d)
    (tells : ∀ s name args, Args s name args → s.ldLibraryPath ≠ "" →
      ∀ value, DaemonArg.ldLibraryPath value ∈ args ↔ value = s.ldLibraryPath) : ∃ start insts, w'.starts = w.starts ++ [start] ∧
      (∀ value, DaemonArg.ldLibraryPath value ∈ start.args ↔ value = searchPath w.session.stagePath insts) ∧
      w'.Past insts ∧ ∀ d ∈ w'.depsOf mani, Finds w' insts d := by
  cases outcome with
  | emptied sending owned present nothing => cases sending
  | @started m all removed s' args entered added merged told =>
    have frame := merges_frame merged
    have stage : s'.stagePath = w.session.stagePath := by rw [frame]; rfl
    have before : s'.ldLibraryPath = w.session.ldLibraryPath := by rw [frame]; rfl
    have tidy := filled_tidy (w := w) calls (orderly_tidy mirror.dedup.orderly entered.owned entered.present)
    have inst : (filled host w calls m).inst = m.inst := applied_inst _ m
    obtain ⟨insts,path,past⟩ := mirror.linked.searched
    have onward : (s'.extended (filled host w calls m).ldLibraryOverrideFolder).ldLibraryPath =
        searchPath w.session.stagePath (onPath (filled host w calls m) insts) := by
      unfold onPath
      rcases extended_path with ⟨same,unnamed⟩ | ⟨longer,named⟩
      · rw [same,if_pos unnamed,before,path]
      · rw [longer,if_neg (by rw [named]; exact overrideFolder_other.1),before,stage,path]
        rfl
    refine ⟨⟨args,false⟩,onPath (filled host w calls m) insts,rfl,?_,?_,?_⟩
    · rw [← onward]
      refine tells _ _ _ told ?_
      rw [onward]
      exact searchPath_ne
    · have own : World.Past ((w.delivered mani delivery (filled host w calls m) (gained host w calls m) removed
          s').started ⟨args,false⟩) (m.inst :: insts) :=
        past_own mirror.linked mirror.dedup.orderly.distinct entered.present length_set
          (extended_manifests.trans (frame_manifests frame)) past
      unfold onPath
      rw [inst]
      split
      · exact fun later inside => own later (mem_cons_of_mem _ inside)
      · exact own
    · intro d inside
      have deps : depsOf ((w.delivered mani delivery (filled host w calls m) (gained host w calls m) removed
          s').started ⟨args,false⟩) mani = w.depsOf mani ++ (gained host w calls m).flatMap (·.deps) := depsOf_more rfl
      have listed := deps ▸ inside
      obtain ⟨row,rowInside,rowDep⟩ := mem_flatMap.mp inside
      obtain ⟨rowListed,rowOwn⟩ := mem_filter.mp rowInside
      have linking : Linking _ mani (filled host w calls m) := filled_linking (mirror.linked.linking mani entered.owned m entered.present)
      obtain ⟨held,place⟩ := linking.held row rowListed (of_decide_eq_true rowOwn) d rowDep
      refine merged_finds mirror settled tidy merged past entered.owned
        (inst.trans (mirror.linked.numbered mani m entered.present)) linking.named
        ⟨m,mem_of_getElem? entered.present,inst.symm⟩ held place (clear m entered.present d listed) ?_
      exact extended_sourcePaths

theorem reached_stays (settled : host.Settled) (mirror : Mirrored host app stageName first) (past : first.Past insts)
    (later : Reached (Clear host app) (next host app) first more w) : Mirrored host app stageName w ∧ Stays first insts w := by
  induction later with
  | start => exact ⟨mirror,rfl,past,fun _ _ _ => rfl,fun _ _ found => found⟩
  | step _ clear ih => exact ⟨next_mirrored settled ih.1 clear.1,next_stays ih.1 ih.2 clear.1⟩

end Mirroring

-- While every shipment of the run is clear, a daemon that was started finds each
-- dependency of its manifest in the very file that was resolved for it, then and
-- after whatever is shipped later.
theorem exec_finds_dependencies (host : Host) (app : App) (stageName wlmType : String) (settled : host.Settled)
    (plain : Without ':' (app.toolPath ++ "/" ++ stageName))
    (path : Reached (Clear host app) (next host app) (start app stageName wlmType) calls w)
    (clear : Clear host app w (.execManifest delivery mani daemon daemonArgs envVars)) (later : Reached (Clear host app) (next host app)
      (next host app w (.execManifest delivery mani daemon daemonArgs envVars)) more w') :
    ∃ start, (next host app w (.execManifest delivery mani daemon daemonArgs envVars)).starts = w.starts ++ [start] ∧
      (∃ value, DaemonArg.ldLibraryPath value ∈ start.args) ∧ ∀ value, DaemonArg.ldLibraryPath value ∈ start.args →
        ∀ d ∈ (next host app w (.execManifest delivery mani daemon daemonArgs envVars)).depsOf mani,
          w'.resolve app.toolPath value d.name = some d.source := by
  have mirror := reached_invariant start_mirrored
    (fun w call mirror clear => next_mirrored settled mirror clear.1) path
  have outcome := ended_well (execManifest_outcome host app delivery mani daemon daemonArgs envVars w)
    (smooth_parts clear.1 rfl).1
  obtain ⟨start,insts,begun,told,past,finds⟩ := outcome_finds mirror settled outcome
    (fun m present => by simpa only [present,adds] using clear.2) fun _ _ _ => told_path
  have mirror' := next_mirrored settled mirror clear.1
  refine ⟨start,begun,⟨_,(told _).mpr rfl⟩,?_⟩
  intro value inside d dep
  have onward := reached_stays settled mirror' past later
  have stage : w'.session.stagePath = w.session.stagePath := onward.1.linked.stagePath.trans mirror.linked.stagePath.symm
  have found := finds_resolves (finds d dep) onward.2 onward.1 (by rw [onward.1.linked.stagePath]; exact plain)
  rw [stage,← (told value).mp inside] at found
  exact found

def threeVersions : String → Option (List String)
  | "/t1" => some ["/v1/x"]
  | "/t2" => some ["/v2/x"]
  | "/t3" => some ["/v3/x"]
  | _ => none

def execOf (mani : Nat) (daemon : String) : Call := .execManifest plainDelivery mani daemon none none

def firstVersion : List Call := [.createManifest,.createManifest,.createManifest,execOf 0 "/t1"]

theorem exec_finds_dependencies_three_versions : (∃ start ∈ (plainRun threeVersions (firstVersion ++ [execOf 1 "/t2"])).starts,
      .ldLibraryPath "/tool/stage/lib.2:/tool/stage/lib" ∈ start.args) ∧
    (plainRun threeVersions (firstVersion ++ [execOf 1 "/t2",execOf 2 "/t3"])).resolve
      "/tool" "/tool/stage/lib.2:/tool/stage/lib" "x" = some "/v2/x" := by
  have path : Reached (Clear (plainHost threeVersions) plainApp) (next (plainHost threeVersions) plainApp)
      (start plainApp "stage" "wlm") firstVersion (plainRun threeVersions firstVersion) := reached_run (by decide)
  have later : Reached (Clear (plainHost threeVersions) plainApp) (next (plainHost threeVersions) plainApp)
      (next (plainHost threeVersions) plainApp (plainRun threeVersions firstVersion)
        (.execManifest plainDelivery 1 "/t2" none none)) [execOf 2 "/t3"]
      (plainRun threeVersions (firstVersion ++ [execOf 1 "/t2",execOf 2 "/t3"])) := reached_run (by decide)
  obtain ⟨start,begun,_,finds⟩ := exec_finds_dependencies (plainHost threeVersions) plainApp "stage" "wlm"
    (fun _ _ _ => rfl) (by decide) path (by decide) later
  change (plainRun threeVersions (firstVersion ++ [execOf 1 "/t2"])).starts = _ at begun
  have told : .ldLibraryPath "/tool/stage/lib.2:/tool/stage/lib" ∈ start.args := by
    have last : (plainRun threeVersions (firstVersion ++ [execOf 1 "/t2"])).starts.getLast?.any
      (fun start => .ldLibraryPath "/tool/stage/lib.2:/tool/stage/lib" ∈ start.args) = true := by decide
    rw [begun,getLast?_append] at last
    exact of_decide_eq_true last
  refine ⟨⟨start,by rw [begun]; exact mem_append_right _ mem_cons_self,told⟩,?_⟩
  exact finds _ told ⟨"lib.2","x","/v2/x"⟩ (by decide)

-- The third tool wants the version that is in lib, behind the second one's override.
def versionInLib : String → Option (List String)
  | "/t1" => some ["/v1/x"]
  | "/t2" => some ["/v2/x"]
  | "/t3" => some ["/v1/x"]
  | _ => none

theorem other_version_found : AdmittedAlong (fun w call => Returned (call.perform (plainHost versionInLib) plainApp w))
      (next (plainHost versionInLib) plainApp) (start plainApp "stage" "wlm") (firstVersion ++ [execOf 1 "/t2",execOf 2 "/t3"]) ∧
    ∃ w, plainRun versionInLib (firstVersion ++ [execOf 1 "/t2",execOf 2 "/t3"]) = w ∧ w.depsOf 2 = [⟨"lib","x","/v1/x"⟩] ∧
      ∃ start, w.starts.getLast? = some start ∧ .ldLibraryPath "/tool/stage/lib.2:/tool/stage/lib" ∈ start.args ∧
        w.resolve "/tool" "/tool/stage/lib.2:/tool/stage/lib" "x" = some "/v2/x" := by
  exact ⟨by decide,_,rfl,by decide,_,rfl,by decide,by decide⟩

end CommonTools.Transfer
