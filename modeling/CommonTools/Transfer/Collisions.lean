import CommonTools.Transfer.Shipping

namespace CommonTools.Transfer
open OrderedMaps Plans Programs

def Collides (m : Manifest) (r : Record) : Prop :=
  m.folders.Holds r.folder r.name ∧ m.sourcePaths.find r.name ≠ some r.source

def Repeats (m : Manifest) (r : Record) : Prop :=
  m.folders.Holds r.folder r.name ∧ m.sourcePaths.find r.name = some r.source

-- The session has shipped another file there. This is all that is ever compared.
def Conflicts (shipped : PathMap) (r : Record) : Prop :=
  getSourcePath shipped r.folder r.name ≠ "" ∧ getSourcePath shipped r.folder r.name ≠ r.source

instance (m : Manifest) (r : Record) : Decidable (Collides m r) := inferInstanceAs (Decidable (_ ∧ _))
instance (m : Manifest) (r : Record) : Decidable (Repeats m r) := inferInstanceAs (Decidable (_ ∧ _))
instance (shipped : PathMap) (r : Record) : Decidable (Conflicts shipped r) := inferInstanceAs (Decidable (_ ∧ _))

section Placing
variable {host : Host} {shipped : PathMap} {m : Manifest}

section
variable (real : host.realpath filePath = some source)
include real

theorem checkAndAdd_result : checkAndAdd host shipped folder filePath name m = if Conflicts shipped ⟨folder,name,source⟩ then
        .error (conflictMessage source folder name (getSourcePath shipped folder name)) m
      else .ok ⟨folder,name,source⟩ (m.record ⟨folder,name,source⟩) := by
  have canonical : realpath host filePath m = .ok source m := by unfold realpath; rw [real]; rfl
  change EStateM.bind _ _ m = _
  simp only [EStateM.bind,canonical]
  by_cases conflict : getSourcePath shipped folder name ≠ "" ∧ getSourcePath shipped folder name ≠ source
  · have same : Conflicts shipped ⟨folder,name,source⟩ := conflict
    rw [if_pos conflict,if_pos same]; rfl
  · have same : ¬ Conflicts shipped ⟨folder,name,source⟩ := conflict
    rw [if_neg conflict,if_neg same]; rfl

theorem refusal_exact : (∃ message, checkAndAdd host shipped folder filePath name m = .error message m) ↔
      Conflicts shipped ⟨folder,name,source⟩ := by
  rw [checkAndAdd_result real]
  by_cases conflict : Conflicts shipped ⟨folder,name,source⟩
  · rw [if_pos conflict]
    exact iff_of_true ⟨_,rfl⟩ conflict
  · rw [if_neg conflict]
    exact iff_of_false (fun ⟨_,wrong⟩ => by cases wrong) conflict

theorem repetition_exact (repeats : Repeats m ⟨folder,name,source⟩) :
    checkAndAdd host shipped folder filePath name m = .ok ⟨folder,name,source⟩ m ↔ ¬ Conflicts shipped ⟨folder,name,source⟩ := by
  rw [checkAndAdd_result real,Manifest.record,Grouped.add_held repeats.1,OrderedMap.insert_found repeats.2]
  by_cases conflict : Conflicts shipped ⟨folder,name,source⟩
  · rw [if_pos conflict]
    exact iff_of_false nofun fun free => free conflict
  · rw [if_neg conflict]
    exact iff_of_true rfl conflict

theorem placeLibrary_result : placeLibrary host shipped filePath name .Ignore m = if Conflicts shipped ⟨"lib",name,source⟩ then
        checkAndAdd host shipped (overrideFolder m.inst) filePath name m.useOverride
      else .ok ⟨"lib",name,source⟩ (m.record ⟨"lib",name,source⟩) := by
  have first : checkAndAdd host shipped "lib" filePath name m = _ := checkAndAdd_result real
  change EStateM.tryCatch _ _ m = _
  unfold EStateM.tryCatch
  by_cases conflict : Conflicts shipped ⟨"lib",name,source⟩
  · rw [if_pos conflict] at first
    rw [first,if_pos conflict]
    change checkAndAdd host shipped m.useOverride.ldLibraryOverrideFolder filePath name m.useOverride = _
    rw [useOverride_folder]
  · rw [if_neg conflict] at first
    rw [first,if_neg conflict]

-- The sources are filed by name, so an override of a name that the manifest
-- already has in lib takes that file's source with it.
theorem override_exact (earlier : Collides m ⟨"lib",name,source⟩ ∨ Conflicts shipped ⟨"lib",name,source⟩) :
    (∃ m', placeLibrary host shipped filePath name .Ignore m = .ok ⟨overrideFolder m.inst,name,source⟩ m' ∧
      (m.folders.Holds "lib" name → m'.sourcePaths.find name = m.sourcePaths.find name)) ↔
    ¬ Collides m ⟨"lib",name,source⟩ ∧ ¬ Conflicts shipped ⟨overrideFolder m.inst,name,source⟩ := by
  rw [placeLibrary_result real]
  by_cases conflict : Conflicts shipped ⟨"lib",name,source⟩
  · rw [if_pos conflict,checkAndAdd_result real]
    by_cases again : Conflicts shipped ⟨overrideFolder m.inst,name,source⟩
    · rw [if_pos again]
      exact iff_of_false (fun ⟨_,wrong,_⟩ => by cases wrong) fun both => both.2 again
    · rw [if_neg again]
      have now : (m.useOverride.record ⟨overrideFolder m.inst,name,source⟩).sourcePaths.find name = some source := by simp [Manifest.record]
      constructor
      · rintro ⟨m',placed,kept⟩
        cases placed
        refine ⟨fun collides => ?_,again⟩
        exact collides.2 ((kept collides.1).symm.trans now)
      · rintro ⟨separate,_⟩
        refine ⟨_,rfl,fun held => ?_⟩
        rw [now]
        exact (by_contra fun differs => separate ⟨held,fun same => differs same.symm⟩)
  · rw [if_neg conflict]
    have collides := earlier.resolve_right conflict
    refine iff_of_false ?_ fun both => both.1 collides
    rintro ⟨m',placed,_⟩
    have folders : "lib" = overrideFolder m.inst := by
      have same := (EStateM.Result.ok.inj placed).1
      exact (Record.mk.inj same).1
    have letters := congrArg (fun text => text.toList.length) folders
    simp only [overrideFolder,String.toList_append,List.length_append] at letters
    change 3 = 4 + _ at letters
    omega

end

-- Where an explicit add puts the file it names, once that has been located. A
-- library added without its dependencies counts as one of another's.
structure Site where
  filePath : String
  own : Record
  depsPolicy : DepsPolicy

def siteOf (host : Host) (located : Option String) (folder : String) (depsPolicy : DepsPolicy) : Option Site := do
  let filePath ← located
  let name ← host.basename filePath
  let source ← host.realpath filePath
  return ⟨filePath,⟨folder,name,source⟩,depsPolicy⟩

def AddCall.site (host : Host) : AddCall → Option Site
  | .binary rawName policy => siteOf host ((host.findPath rawName).filter host.fileHasPerms) "bin" policy
  | .library rawName .Stage => siteOf host (host.findLib rawName) "lib" .Stage
  | .library _ .Ignore => none
  | .libDir rawPath => siteOf host (host.realpath rawPath) "lib" .Ignore
  | .file rawName => siteOf host (host.findPath rawName) "" .Ignore

def stageDeps (host : Host) (shipped : PathMap) (site : Site) : ManifestM Added :=
  match site.depsPolicy with
  | .Stage => do return ⟨site.own,← addLibDeps host shipped site.filePath⟩
  | .Ignore => return ⟨site.own,[]⟩

theorem siteOf_parts (found : siteOf host located folder policy = some site) :
    ∃ filePath name source, located = some filePath ∧ host.basename filePath = some name ∧
      host.realpath filePath = some source ∧ site = ⟨filePath,⟨folder,name,source⟩,policy⟩ := by
  unfold siteOf at found
  simp only [Option.bind_eq_bind,Option.bind_eq_some_iff] at found
  obtain ⟨filePath,path,name,base,source,real,made⟩ := found
  cases made
  exact ⟨filePath,name,source,path,base,real,rfl⟩

theorem enforceValid_valid (valid : m.isValid = true) : enforceValid m = .ok () m := by
  change (if m.isValid then pure () else throw _ : ManifestM Unit) m = _
  rw [if_pos valid]
  rfl

theorem basename_named (named : host.basename filePath = some name) : basename host filePath m = .ok name m := by
  unfold basename; rw [named]; rfl

theorem placeLibrary_explicit (real : host.realpath filePath = some source) :
    placeLibrary host shipped filePath name .Stage m = checkAndAdd host shipped "lib" filePath name m := by
  change EStateM.tryCatch _ _ m = _
  unfold EStateM.tryCatch
  rw [checkAndAdd_result real]
  by_cases conflict : Conflicts shipped ⟨"lib",name,source⟩
  · rw [if_pos conflict]; rfl
  · rw [if_neg conflict]

theorem located_site (place : String → String → ManifestM Record) (rest : String → Record → ManifestM Added)
    {locate : ManifestM String} (valid : m.isValid = true) (found : locate m = .ok filePath m)
    (named : host.basename filePath = some name) (real : host.realpath filePath = some source)
    (placed : place filePath name m = checkAndAdd host shipped folder filePath name m) :
    (do enforceValid
        let filePath ← locate
        let realName ← basename host filePath
        let own ← place filePath realName
        rest filePath own : ManifestM Added) m =
      if Conflicts shipped ⟨folder,name,source⟩ then
        .error (conflictMessage source folder name (getSourcePath shipped folder name)) m
      else rest filePath ⟨folder,name,source⟩ (m.record ⟨folder,name,source⟩) := by
  rw [bind_after (enforceValid_valid valid),bind_after found,bind_after (basename_named named)]
  rw [checkAndAdd_result real] at placed
  by_cases conflict : Conflicts shipped ⟨folder,name,source⟩
  · rw [if_pos conflict] at placed
    rw [bind_stopped placed,if_pos conflict]
  · rw [if_neg conflict] at placed
    rw [bind_after placed,if_neg conflict]

theorem perform_site (valid : m.isValid = true) {call : AddCall} (aimed : call.site host = some site) : call.perform host shipped m =
      if Conflicts shipped site.own then .error (conflictMessage site.own.source site.own.folder site.own.name
          (getSourcePath shipped site.own.folder site.own.name)) m else stageDeps host shipped site (m.record site.own) := by
  cases call with
  | binary rawName policy =>
    obtain ⟨filePath,name,source,located,named,real,rfl⟩ := siteOf_parts aimed
    obtain ⟨path,perms⟩ := Option.filter_eq_some_iff.mp located
    have found : findPath host rawName m = .ok filePath m := by unfold findPath; rw [path]; rfl
    have whole := located_site (checkAndAdd host shipped "bin")
      (fun filePath own => stageDeps host shipped ⟨filePath,own,policy⟩) valid found named real rfl
    refine Eq.trans ?_ whole
    change addBinary host shipped rawName policy m = _
    unfold addBinary
    rw [bind_after (enforceValid_valid valid),bind_after found,bind_after (basename_named named),if_pos perms]
    rw [bind_after (enforceValid_valid valid),bind_after found,bind_after (basename_named named)]
    cases policy <;> rfl
  | library rawName policy =>
    cases policy with
    | Ignore => cases aimed
    | Stage =>
      obtain ⟨filePath,name,source,path,named,real,rfl⟩ := siteOf_parts aimed
      have found : findLib host rawName m = .ok filePath m := by unfold findLib; rw [path]; rfl
      exact located_site (fun filePath realName => placeLibrary host shipped filePath realName .Stage)
        (fun filePath own => stageDeps host shipped ⟨filePath,own,.Stage⟩) valid found named real
        (placeLibrary_explicit real)
  | libDir rawPath =>
    obtain ⟨filePath,name,source,path,named,real,rfl⟩ := siteOf_parts aimed
    have found : realpath host rawPath m = .ok filePath m := by unfold realpath; rw [path]; rfl
    exact located_site (checkAndAdd host shipped "lib") (fun _ own => return ⟨own,[]⟩) valid found named real rfl
  | file rawName =>
    obtain ⟨filePath,name,source,path,named,real,rfl⟩ := siteOf_parts aimed
    have found : findPath host rawName m = .ok filePath m := by unfold findPath; rw [path]; rfl
    exact located_site (checkAndAdd host shipped "") (fun _ own => return ⟨own,[]⟩) valid found named real rfl

end Placing

-- A file that the manifest holds already: a collision is refused exactly when the
-- session has shipped another file there, and a repetition passes exactly when it
-- has not. A dependency goes to the override folder without replacing a file only
-- when the manifest has no other file of that name in lib. The last part says
-- that an explicit add is one such placement followed by its dependencies.
theorem collisions_against_session (host : Host) (shipped : PathMap) (m : Manifest) (valid : m.isValid = true) :
    (∀ folder filePath name source, host.realpath filePath = some source → (Collides m ⟨folder,name,source⟩ →
        ((∃ message, checkAndAdd host shipped folder filePath name m = .error message m) ↔ Conflicts shipped ⟨folder,name,source⟩)) ∧
      (Repeats m ⟨folder,name,source⟩ → (checkAndAdd host shipped folder filePath name m = .ok ⟨folder,name,source⟩ m ↔
          ¬ Conflicts shipped ⟨folder,name,source⟩))) ∧ (∀ filePath name source, host.realpath filePath = some source →
      Collides m ⟨"lib",name,source⟩ ∨ Conflicts shipped ⟨"lib",name,source⟩ →
        ((∃ m', placeLibrary host shipped filePath name .Ignore m = .ok ⟨overrideFolder m.inst,name,source⟩ m' ∧
          (m.folders.Holds "lib" name → m'.sourcePaths.find name = m.sourcePaths.find name)) ↔
        ¬ Collides m ⟨"lib",name,source⟩ ∧ ¬ Conflicts shipped ⟨overrideFolder m.inst,name,source⟩)) ∧
    (∀ call site, AddCall.site host call = some site → call.perform host shipped m = if Conflicts shipped site.own then
          .error (conflictMessage site.own.source site.own.folder site.own.name (getSourcePath shipped site.own.folder site.own.name)) m
        else stageDeps host shipped site (m.record site.own)) := by
  refine ⟨?_,fun _ name _ real earlier => override_exact real earlier,fun call _ => perform_site valid⟩
  intro folder filePath name source real
  exact ⟨fun _ => refusal_exact real,repetition_exact real⟩

def holdsX : Manifest := (Manifest.fresh 1).record ⟨"","x","/a/x"⟩

theorem collisions_against_session_shipped : Collides holdsX ⟨"","x","/b/x"⟩ ∧
    ∃ message, checkAndAdd (plainHost fun _ => none) ((.empty : PathMap).insert "/x" "/c/x") "" "/b/x" "x" holdsX =
      .error message holdsX := by
  have whole := collisions_against_session (plainHost fun _ => none) ((.empty : PathMap).insert "/x" "/c/x") holdsX rfl
  exact ⟨by decide,((whole.1 "" "/b/x" "x" "/b/x" rfl).1 (by decide)).mpr (by decide)⟩

-- Nothing has been shipped yet, so neither a file nor a dependency is refused.
def ownLibrary : String → Option (List String)
  | "/b/tool" => some ["/b/libx"]
  | _ => none

theorem collision_unreported : (∃ m, (plainRun ownLibrary [.createManifest,.add 0 (.file "/a/x")]).manifests[0]? = some m ∧
      Collides m ⟨"","x","/b/x"⟩ ∧
      ∃ m', (plainRun ownLibrary [.createManifest,.add 0 (.file "/a/x"),.add 0 (.file "/b/x")]).manifests[0]? = some m' ∧
        Returned (Call.perform (plainHost ownLibrary) plainApp (.add 0 (.file "/b/x"))
          (plainRun ownLibrary [.createManifest,.add 0 (.file "/a/x")])) ∧ m'.sourcePaths.find "x" = some "/b/x") ∧
    (∃ m, (plainRun ownLibrary [.createManifest,.add 0 (.library "/a/libx" .Stage),
        .add 0 (.binary "/b/tool" .Stage)]).manifests[0]? = some m ∧
      m.ldLibraryOverrideFolder = "" ∧ m.sourcePaths.find "libx" = some "/b/libx") := by
  exact ⟨⟨_,rfl,by decide,_,rfl,by decide,by decide⟩,_,rfl,by decide,by decide⟩

end CommonTools.Transfer
