import CommonTools.Library.Texts
import CommonTools.Transfer.Shipping

namespace CommonTools.Transfer
open OrderedMaps Plans Programs Texts List Grouped
open Manifest hiding inst

theorem overrideFolder_without : Without '/' (overrideFolder inst) := without_append.mpr ⟨by decide,without_number rfl⟩

theorem staged_without (staged : Staged inst folder) : Without '/' folder := by
  rcases staged with rfl | rfl | rfl | rfl
  · decide
  · decide
  · decide
  · exact overrideFolder_without

theorem destPath_inj (free : Without '/' folder) (free' : Without '/' folder')
    (same : destPath stageName folder name = destPath stageName folder' name') : folder = folder' ∧ name = name' := by
  have parts : stageName ++ ("/" ++ (folder ++ "/" ++ name)) = stageName ++ ("/" ++ (folder' ++ "/" ++ name')) := by
    simpa only [destPath,String.append_assoc] using same
  exact joined_inj free free' (append_left_inj (append_left_inj parts))

theorem archivePath_inj (free : Without '/' folder) (free' : Without '/' folder')
    (same : archivePath folder name = archivePath folder' name') : folder = folder' ∧ name = name' :=
  joined_inj free free' same

-- An entry whose contents, or link target, is the file at `source`.
def Entry.Carries (entry : Entry) (path source : String) : Prop :=
  entry = .file path source ∨ entry = .link path source

instance (entry : Entry) (path source : String) : Decidable (entry.Carries path source) :=
  inferInstanceAs (Decidable (_ ∨ _))

theorem carries_fileEntry (present : entry ∈ shipEntries delivery stageName m) (carries : entry.Carries path source) :
    ∃ folder name, m.folders.Holds folder name ∧ m.sourcePaths.find name = some source ∧ path = destPath stageName folder name := by
  rcases mem_append.mp present with directory | file
  · simp only [dirEntries,mem_cons,not_mem_nil,or_false] at directory
    rcases carries with rfl | rfl <;> simp at directory
  · obtain ⟨pair,held,made⟩ := mem_filterMap.mp file
    cases found : m.sourcePaths.find pair.2 with
    | none => simp [found] at made
    | some sourcePath =>
      rw [found,Option.map_some] at made
      refine ⟨pair.1,pair.2,(mem_pairs _).mp held,?_⟩
      rcases carries with rfl | rfl
      · split at made
        · cases made
        · cases made; exact ⟨found,rfl⟩
      · split at made
        · cases made; exact ⟨found,rfl⟩
        · cases made

section Merging
variable {host : Host} {newPaths : PathMap} {s s' : Session} {pairs removed : List (String × String)}

theorem mergeStep_find (step : MergeStep host newPaths s pair known s') :
    (key ≠ fileKey pair ∨ (s.sourcePaths.find key).isSome) → s'.sourcePaths.find key = s.sourcePaths.find key := by
  intro kept
  cases step with
  | shipped source same | missing source | conflict source known differs | unreal source unknown lost => rfl
  | fresh source unknown real =>
    simp only [Session.register,OrderedMap.find_insert]
    split
    · rename_i equal
      rcases kept with differs | present
      · exact absurd equal differs
      · rw [equal] at present
        change (s.sourcePaths.find (fileKey pair)).isSome = true at present
        rw [unknown] at present
        cases present
    · rfl

theorem mergeStep_later (step : MergeStep host newPaths s first known s') (fresh : fileKey first ∉ pairs.map fileKey)
    (inside : pair ∈ pairs) : s'.sourcePaths.find (fileKey pair) = s.sourcePaths.find (fileKey pair) :=
  mergeStep_find step (.inl fun equal => fresh (equal ▸ mem_map_of_mem inside))

theorem merges_keep (merged : Merges host newPaths s pairs removed s') (kept : key ∉ pairs.map fileKey ∨ (s.sourcePaths.find key).isSome) :
    s'.sourcePaths.find key = s.sourcePaths.find key := by
  induction merged with
  | done => rfl
  | shipped step _ ih | fresh step _ ih =>
    have first := mergeStep_find step (kept.imp (fun out same => out (by simp [same])) id)
    rw [ih (kept.imp (fun out inside => out (mem_cons_of_mem _ inside)) (by rw [first]; exact id)),first]

theorem merges_keep_some (merged : Merges host newPaths s pairs removed s') (known : s.sourcePaths.find key = some path) :
    s'.sourcePaths.find key = some path :=
  (merges_keep merged (.inr (by rw [known]; rfl))).trans known

theorem merges_removed (distinct : (pairs.map fileKey).Nodup) (merged : Merges host newPaths s pairs removed s') (pair : String × String) :
    pair ∈ removed ↔ pair ∈ pairs ∧ (s.sourcePaths.find (fileKey pair)).isSome := by
  induction merged with
  | done => simp
  | @shipped s head middle rest removed s' step _ ih =>
    obtain ⟨fresh,tail⟩ := nodup_cons.mp distinct
    have recorded : (s.sourcePaths.find (fileKey head)).isSome := by cases step with | shipped source same => rw [same]; rfl
    simp only [mem_cons,ih tail]
    constructor
    · rintro (rfl | ⟨inside,known⟩)
      · exact ⟨.inl rfl,recorded⟩
      · exact ⟨.inr inside,mergeStep_later step fresh inside ▸ known⟩
    · rintro ⟨rfl | inside,known⟩
      · exact .inl rfl
      · exact .inr ⟨inside,(mergeStep_later step fresh inside).symm ▸ known⟩
  | @fresh s head middle rest removed s' step _ ih =>
    obtain ⟨fresh,tail⟩ := nodup_cons.mp distinct
    have unrecorded : s.sourcePaths.find (fileKey head) = none := by cases step with | fresh source unknown real => exact unknown
    simp only [mem_cons,ih tail]
    constructor
    · rintro ⟨inside,known⟩
      exact ⟨.inr inside,mergeStep_later step fresh inside ▸ known⟩
    · rintro ⟨rfl | inside,known⟩
      · rw [unrecorded] at known; cases known
      · exact ⟨inside,(mergeStep_later step fresh inside).symm ▸ known⟩

-- Every pair of a merge ends on record: from the manifest's own path when it was
-- there already, and otherwise under the canonical form of that path.
theorem merges_recorded (distinct : (pairs.map fileKey).Nodup) (merged : Merges host newPaths s pairs removed s') (inside : pair ∈ pairs) :
    ∃ path, newPaths.find pair.2 = some path ∧ (s.sourcePaths.find (fileKey pair) = some path ∨ s.sourcePaths.find (fileKey pair) = none ∧
          ∃ canonical, host.realpath path = some canonical ∧ s'.sourcePaths.find (fileKey pair) = some canonical) := by
  induction merged with
  | done => cases inside
  | @shipped s head middle rest removed s' step _ ih =>
    obtain ⟨fresh,tail⟩ := nodup_cons.mp distinct
    rcases mem_cons.mp inside with rfl | later
    · cases step with | shipped source same => exact ⟨_,source,.inl same⟩
    · simpa only [mergeStep_later step fresh later] using ih tail later
  | @fresh s head middle rest removed s' step more ih =>
    obtain ⟨fresh,tail⟩ := nodup_cons.mp distinct
    rcases mem_cons.mp inside with rfl | later
    · cases step with
      | fresh source unknown real =>
        refine ⟨_,source,.inr ⟨unknown,_,real,merges_keep_some more ?_⟩⟩
        simp [Session.register,fileKey]
    · simpa only [mergeStep_later step fresh later] using ih tail later

theorem mergeStep_folders (step : MergeStep host newPaths s pair known s') :
    s'.folders.Holds folder name ↔ s.folders.Holds folder name ∨ (folder,name) = pair := by
  have entered : s'.folders = s.folders.add pair.1 pair.2 := by cases step <;> rfl
  rw [entered,holds_add,or_comm,Prod.ext_iff]

theorem merges_folders (merged : Merges host newPaths s pairs removed s') :
    s'.folders.Holds folder name ↔ s.folders.Holds folder name ∨ (folder,name) ∈ pairs := by
  induction merged with
  | done => simp
  | shipped step _ ih | fresh step _ ih => rw [ih,mergeStep_folders step,mem_cons,or_assoc]

end Merging

-- What realpath returns has no symbolic link left in it.
def Host.Settled (host : Host) : Prop :=
  ∀ path canonical, host.realpath path = some canonical → host.realpath canonical = some canonical

-- A manifest that has only been added to: it stages into its own folders, every
-- name it holds has a source, and every source is something realpath returned.
structure Tidy (host : Host) (m : Manifest) : Prop where
  staged : ∀ folder name, m.folders.Holds folder name → Staged m.inst folder
  sourced : ∀ folder name, m.folders.Holds folder name → ∃ source, m.sourcePaths.find name = some source
  canonical : ∀ name source, m.sourcePaths.find name = some source → ∃ path, host.realpath path = some source

-- The handles a session owns are distinct and lead to manifests never shipped.
structure Orderly (host : Host) (w : World) : Prop where
  distinct : w.session.manifests.Nodup
  owned : ∀ mani ∈ w.session.manifests, ∃ m, w.manifests[mani]? = some m ∧ Tidy host m

section Upkeep
variable {host : Host} {w : World} {m : Manifest} {mani : Nat}

theorem apply_tidy (lawful : Lawful host shipped m.inst e) (tidy : Tidy host m) : Tidy host (m.apply e) := by
  cases e with
  | overridden =>
    simp only [apply,useOverride]
    split
    · exact ⟨tidy.staged,tidy.sourced,tidy.canonical⟩
    · exact tidy
  | recorded r =>
    obtain ⟨staged,_,real⟩ := lawful r rfl
    refine ⟨?_,?_,?_⟩
    · intro folder name held
      rcases holds_add.mp held with ⟨rfl,_⟩ | old
      · exact staged
      · exact tidy.staged folder name old
    · intro folder name held
      simp only [apply,record,OrderedMap.find_insert,holds_add] at held ⊢
      by_cases same : name = r.name
      · exact ⟨r.source,by rw [if_pos same]⟩
      · rw [if_neg same]
        exact tidy.sourced folder name (held.resolve_left fun pair => same pair.2)
    · intro name source found
      simp only [apply,record,OrderedMap.find_insert] at found
      split at found
      · cases found; exact real
      · exact tidy.canonical name source found

theorem applied_tidy {effects : List Effect} (lawful : ∀ e ∈ effects, Lawful host shipped m.inst e)
    (tidy : Tidy host m) : Tidy host (effects.foldl apply m) := by
  induction effects generalizing m with
  | nil => exact tidy
  | cons e rest ih =>
    refine ih ?_ (apply_tidy (lawful e mem_cons_self) tidy)
    intro later inside
    rw [apply_inst]
    exact lawful later (mem_cons_of_mem _ inside)

theorem filled_lawful : ∀ e ∈ (Plan.each (w.plan host m) calls).effects, Lawful host w.session.sourcePaths m.inst e :=
  row_assembled lawful_assembled m.isValid calls

theorem filled_tidy (calls : List AddCall) (tidy : Tidy host m) : Tidy host (filled host w calls m) := applied_tidy filled_lawful tidy

theorem tidy_keys (tidy : Tidy host m) : (m.folders.pairs.map fileKey).Nodup := by
  refine List.Nodup.map_on ?_ pairs_nodup
  intro pair inside pair' inside' same
  have free := staged_without (tidy.staged pair.1 pair.2 ((mem_pairs _).mp inside))
  have free' := staged_without (tidy.staged pair'.1 pair'.2 ((mem_pairs _).mp inside'))
  obtain ⟨one,two⟩ := archivePath_inj free free' same
  exact Prod.ext one two

theorem orderly_tidy (orderly : Orderly host w) (owned : mani ∈ w.session.manifests)
    (present : w.manifests[mani]? = some m) : Tidy host m := by
  obtain ⟨m',same,tidy⟩ := orderly.owned mani owned
  rw [present] at same
  cases same
  exact tidy

theorem orderly_grow (orderly : Orderly host w) (tidy : mani ∈ w.session.manifests → Tidy host m) : Orderly host (w.grow mani m taken) := by
  refine ⟨orderly.distinct,?_⟩
  intro other inside
  obtain ⟨m',present,kept⟩ := orderly.owned other inside
  by_cases same : other = mani
  · subst same; exact ⟨m,grow_at m taken present,tidy inside⟩
  · exact ⟨m',by simpa [World.grow,getElem?_set,Ne.symm same] using present,kept⟩

theorem orderly_release (orderly : Orderly host w) (handles : w'.session.manifests = w.session.manifests.erase mani)
    (manifests : w'.manifests = w.manifests.set mani m) : Orderly host w' := by
  refine ⟨handles ▸ orderly.distinct.erase mani,?_⟩
  intro other inside
  rw [handles,orderly.distinct.mem_erase_iff] at inside
  obtain ⟨m',present,kept⟩ := orderly.owned other inside.2
  exact ⟨m',by simpa [manifests,getElem?_set,Ne.symm inside.1] using present,kept⟩

theorem frame_stageName (frame : (w.opened mani).SameBut s) : s.stageName = w.session.stageName := by
  rw [frame]; rfl

theorem frame_manifests (frame : (w.opened mani).SameBut s) : s.manifests = w.session.manifests.erase mani := by
  rw [frame]; rfl

theorem extended_manifests {s : Session} : (s.extended libPath).manifests = s.manifests := by
  unfold Session.extended; split <;> rfl

theorem extended_sourcePaths {s : Session} : (s.extended libPath).sourcePaths = s.sourcePaths := by
  unfold Session.extended; split <;> rfl

theorem extended_folders {s : Session} : (s.extended libPath).folders = s.folders := by
  unfold Session.extended; split <;> rfl

theorem outcome_orderly (orderly : Orderly host w)
    (outcome : Outcome host w mani calls delivery Args synchronous returned w') : Orderly host w' := by
  cases outcome with
  | refused _ => exact orderly
  | emptied _ owned present nothing => exact orderly_release orderly rfl rfl
  | unadded entered threw => exact orderly_grow orderly fun _ => filled_tidy calls (orderly_tidy orderly entered.owned entered.present)
  | unmerged entered added failed => exact orderly_release orderly (frame_manifests (mergeFails_frame failed)) rfl
  | undelivered entered added merged | unstarted entered added merged | started entered added merged told =>
    exact orderly_release orderly (extended_manifests.trans (frame_manifests (merges_frame merged))) rfl

-- A send or an exec takes its manifest from the session unless it is refused or one of its adds throws.
theorem outcome_hands (outcome : Outcome host w mani calls delivery Args synchronous returned w') :
    w'.manifests.length = w.manifests.length ∧ (w'.session.manifests = w.session.manifests.erase mani ∨
        w'.session.manifests = w.session.manifests ∧ ((mani ∉ w.session.manifests ∨ w.manifests[mani]? = none) ∨
          ∃ m message, Entered w mani m synchronous ∧ (Plan.each (w.plan host m) calls).outcome = .error message)) := by
  cases outcome with
  | refused unowned => exact ⟨rfl,.inr ⟨rfl,.inl unowned⟩⟩
  | emptied _ owned present nothing => exact ⟨length_set,.inl rfl⟩
  | unadded entered threw => exact ⟨length_set,.inr ⟨rfl,.inr ⟨_,_,entered,threw⟩⟩⟩
  | unmerged entered added failed => exact ⟨length_set,.inl (frame_manifests (mergeFails_frame failed))⟩
  | undelivered entered added merged | unstarted entered added merged | started entered added merged told =>
    exact ⟨length_set,.inl (extended_manifests.trans (frame_manifests (merges_frame merged)))⟩

theorem fresh_tidy : Tidy host (Manifest.fresh inst) :=
  ⟨fun _ _ held => absurd held holds_empty,fun _ _ held => absurd held holds_empty,
    fun name source found => by simp [fresh] at found⟩

theorem created_orderly (orderly : Orderly host w) : Orderly host w.created := by
  have bounded : ∀ mani ∈ w.session.manifests, mani < w.manifests.length := by
    intro mani inside
    obtain ⟨m,present,_⟩ := orderly.owned mani inside
    exact (List.getElem?_eq_some_iff.mp present).1
  refine ⟨List.nodup_cons.mpr ⟨fun inside => absurd (bounded _ inside) (Nat.lt_irrefl _),orderly.distinct⟩,?_⟩
  intro mani inside
  rcases mem_cons.mp inside with rfl | old
  · exact ⟨_,getElem?_concat_length,fresh_tidy⟩
  · obtain ⟨m,present,tidy⟩ := orderly.owned mani old
    exact ⟨m,by rw [World.created,getElem?_append_left (bounded mani old)]; exact present,tidy⟩

theorem next_orderly (app : App) (orderly : Orderly host w) (call : Call) : Orderly host (call.next host app w) := by
  have moved := next_moves host app w call
  generalize call.next host app w = w' at moved
  cases moved with
  | created => exact created_orderly orderly
  | absent _ => exact orderly
  | added present => exact orderly_grow orderly fun owned => filled_tidy _ (orderly_tidy orderly owned present)
  | sent outcome | ran outcome => exact outcome_orderly orderly outcome

theorem start_orderly (app : App) (stageName wlmType : String) : Orderly host (World.start app stageName wlmType) := ⟨nodup_nil,nofun⟩

end Upkeep

end CommonTools.Transfer
