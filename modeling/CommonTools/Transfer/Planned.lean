import CommonTools.Library.Plans
import CommonTools.Transfer.Manifest

namespace CommonTools.Transfer
open OrderedMaps Plans List Plan

-- The only two ways an add call changes a manifest.
inductive Effect where
  | recorded (r : Record)
  | overridden
  deriving DecidableEq

def Manifest.apply (m : Manifest) : Effect → Manifest
  | .recorded r => m.record r
  | .overridden => m.useOverride

def Effect.record? : Effect → Option Record
  | .recorded r => some r
  | .overridden => none

def records (effects : List Effect) : List Record := effects.filterMap Effect.record?

-- What an add call will do, read off the host and the session's record before
-- it runs. The files the manifest already holds play no part in it.
section Foreseen
variable (host : Host) (shipped : PathMap) (valid : Bool) (inst : Nat)

def answered (answer : Option String) (message : String) : Plan Effect String :=
  match answer with
  | some value => .pure value
  | none => .fail message

def validPlan : Plan Effect Unit :=
  if valid then .pure () else .fail "Attempted to modify previously shipped manifest!"

def checkPlan (folder filePath realName : String) : Plan Effect Record :=
  (answered (host.realpath filePath) "realpath failed.").bind fun canonicalPath =>
    if getSourcePath shipped folder realName ≠ "" ∧ getSourcePath shipped folder realName ≠ canonicalPath then
      .fail (conflictMessage canonicalPath folder realName (getSourcePath shipped folder realName))
    else (emit (.recorded ⟨folder,realName,canonicalPath⟩)).bind fun _ => .pure ⟨folder,realName,canonicalPath⟩

def placePlan (filePath realName : String) (depsPolicy : DepsPolicy) : Plan Effect Record :=
  (checkPlan host shipped "lib" filePath realName).catching fun ex =>
    match depsPolicy with
    | .Stage => .fail ex
    | .Ignore => (emit .overridden).bind fun _ => checkPlan host shipped (overrideFolder inst) filePath realName

def locatedPlan (located : Option String) (missing : String) (next : String → String → Plan Effect α) :
    Plan Effect α :=
  (validPlan valid).bind fun _ => (answered located missing).bind fun filePath =>
    (answered (host.basename filePath) ("basename failed on " ++ filePath)).bind fun realName =>
      next filePath realName

def dependencyPlan (rawName : String) : Plan Effect Record :=
  locatedPlan host valid (host.findLib rawName) (rawName ++ ": Could not locate in LD_LIBRARY_PATH or system location.")
    fun filePath realName => placePlan host shipped inst filePath realName .Ignore

def depsPlan (depsPolicy : DepsPolicy) (filePath : String) : Plan Effect (List Record) :=
  match depsPolicy with
  | .Ignore => .pure []
  | .Stage => match host.getFileDependencies filePath with
    | none => .pure []
    | some libArray => each (dependencyPlan host shipped valid inst) libArray

def withDeps (first : Plan Effect Record) (depsPolicy : DepsPolicy) (filePath : String) : Plan Effect Added :=
  first.bind fun own => (depsPlan host shipped valid inst depsPolicy filePath).bind fun deps => .pure ⟨own,deps⟩

def AddCall.plan : AddCall → Plan Effect Added
  | .binary rawName policy =>
    locatedPlan host valid (host.findPath rawName) (rawName ++ ": Could not locate in PATH.") fun filePath realName =>
      if host.fileHasPerms filePath then
        withDeps host shipped valid inst (checkPlan host shipped "bin" filePath realName) policy filePath
      else .fail "Specified binary does not have execute permissions."
  | .library rawName policy =>
    locatedPlan host valid (host.findLib rawName)
        (rawName ++ ": Could not locate in LD_LIBRARY_PATH or system location.") fun filePath realName =>
      withDeps host shipped valid inst (placePlan host shipped inst filePath realName policy) policy filePath
  | .libDir rawPath =>
    locatedPlan host valid (host.realpath rawPath) "realpath failed." fun realPath realName =>
      (checkPlan host shipped "lib" realPath realName).bind fun own => .pure ⟨own,[]⟩
  | .file rawName =>
    locatedPlan host valid (host.findPath rawName) (rawName ++ ": Could not locate in PATH.") fun filePath realName =>
      (checkPlan host shipped "" filePath realName).bind fun own => .pure ⟨own,[]⟩

end Foreseen

-- The reads of an add call: the validity flag and the instance number. Neither
-- is touched by an effect, so they are settled for the whole call.
def Reads (valid : Bool) (inst : Nat) (m : Manifest) : Prop := m.isValid = valid ∧ m.inst = inst

@[simp] theorem apply_inst (m : Manifest) (e : Effect) : (m.apply e).inst = m.inst := by
  cases e with
  | recorded r => rfl
  | overridden => simp only [Manifest.apply,Manifest.useOverride]; split <;> rfl

@[simp] theorem apply_isValid (m : Manifest) (e : Effect) : (m.apply e).isValid = m.isValid := by
  cases e with
  | recorded r => rfl
  | overridden => simp only [Manifest.apply,Manifest.useOverride]; split <;> rfl

theorem reads_keep : ∀ m e, Reads valid inst m → Reads valid inst (m.apply e) := by
  intro m e reads
  exact ⟨(apply_isValid m e).trans reads.1,(apply_inst m e).trans reads.2⟩

theorem useOverride_folder {m : Manifest} : m.useOverride.ldLibraryOverrideFolder = overrideFolder m.inst := by
  unfold Manifest.useOverride
  split
  · rfl
  · rename_i named
    exact m.overrideNamed.resolve_left named

abbrev Foresees (valid : Bool) (inst : Nat) (act : ManifestM α) (plan : Plan Effect α) : Prop :=
  Follows Manifest.apply (Reads valid inst) act plan

section Simulation
variable {host : Host} {shipped : PathMap} {valid : Bool} {inst : Nat}

theorem answered_foreseen :
    Foresees valid inst (match answer with | some value => pure value | none => throw message)
      (answered answer message) := by
  cases answer with
  | none => exact follows_throw
  | some value => exact follows_pure value

theorem valid_foreseen : Foresees valid inst enforceValid (validPlan valid) := by
  intro m reads
  change (if m.isValid then pure () else throw _ : ManifestM Unit) m = _
  rw [reads.1]
  cases valid <;> rfl

theorem check_foreseen : Foresees valid inst (checkAndAdd host shipped folder filePath realName)
      (checkPlan host shipped folder filePath realName) := by
  refine follows_bind reads_keep answered_foreseen ?_
  intro canonicalPath
  dsimp only
  split
  · exact follows_throw
  · exact follows_bind reads_keep (follows_modify fun _ _ => rfl) fun _ => follows_pure _

theorem place_foreseen : Foresees valid inst (placeLibrary host shipped filePath realName policy)
      (placePlan host shipped inst filePath realName policy) := by
  refine follows_catch reads_keep check_foreseen ?_
  intro message
  cases policy with
  | Stage => exact follows_throw
  | Ignore =>
    intro m reads
    -- The folder is read back from the manifest after it has been named.
    have named : m.useOverride.ldLibraryOverrideFolder = overrideFolder inst := by rw [useOverride_folder,reads.2]
    have placed : checkAndAdd host shipped (overrideFolder inst) filePath realName m.useOverride = _ :=
      check_foreseen _ (reads_keep m .overridden reads)
    change checkAndAdd host shipped m.useOverride.ldLibraryOverrideFolder filePath realName m.useOverride = _
    rw [named,placed]
    rfl

theorem located_foreseen {next : String → String → ManifestM α}
    {later : String → String → Plan Effect α}
    (rest : ∀ filePath realName, Foresees valid inst (next filePath realName) (later filePath realName)) :
    Foresees valid inst
      (do enforceValid
          let filePath ← (match located with | some value => pure value | none => throw missing : ManifestM String)
          let realName ← basename host filePath
          next filePath realName)
      (locatedPlan host valid located missing later) :=
  follows_bind reads_keep valid_foreseen fun _ =>
    follows_bind reads_keep answered_foreseen fun filePath =>
      follows_bind reads_keep answered_foreseen fun realName => rest filePath realName

theorem withDeps_foreseen
    (own : Foresees valid inst first plan) :
    Foresees valid inst
      (do let own ← first
          match policy with
          | .Stage => return ⟨own,← addLibDeps host shipped filePath⟩
          | .Ignore => return ⟨own,[]⟩)
      (withDeps host shipped valid inst plan policy filePath) := by
  refine follows_bind reads_keep own fun taken => ?_
  cases policy with
  | Ignore => exact follows_pure _
  | Stage =>
    unfold addLibDeps depsPlan
    cases host.getFileDependencies filePath with
    | none => exact follows_pure _
    | some libArray =>
      exact follows_bind reads_keep (follows_each reads_keep (fun _ => located_foreseen fun _ _ => place_foreseen) libArray) fun _ => follows_pure _

theorem perform_foreseen {call : AddCall} : Foresees valid inst (call.perform host shipped) (call.plan host shipped valid inst) := by
  cases call with
  | binary rawName policy =>
    refine located_foreseen fun filePath realName => ?_
    split
    · exact withDeps_foreseen check_foreseen
    · exact follows_throw
  | library rawName policy => exact located_foreseen fun filePath realName => withDeps_foreseen place_foreseen
  | libDir rawPath | file rawName =>
    exact located_foreseen fun filePath realName =>
      follows_bind reads_keep check_foreseen fun own => follows_pure _

end Simulation

-- Which folders an instance stages into. None of the names has a slash in it.
def Staged (inst : Nat) (folder : String) : Prop :=
  folder = "" ∨ folder = "bin" ∨ folder = "lib" ∨ folder = overrideFolder inst

def Admitted (shipped : PathMap) (r : Record) : Prop :=
  getSourcePath shipped r.folder r.name = "" ∨ getSourcePath shipped r.folder r.name = r.source

def Lawful (host : Host) (shipped : PathMap) (inst : Nat) (e : Effect) : Prop :=
  ∀ r, e = .recorded r → Staged inst r.folder ∧ Admitted shipped r ∧ ∃ path, host.realpath path = some r.source

section Facts
variable {host : Host} {shipped : PathMap} {valid : Bool} {inst : Nat}

theorem answered_silent : (answered answer message).effects = [] := by
  cases answer <;> rfl

theorem validPlan_silent : (validPlan valid).effects = [] := by
  unfold validPlan; split <;> rfl

-- Every add is put together from these: one file into a common folder, and one
-- file into the override folder right after that folder has been named.
structure Assembled (host : Host) (shipped : PathMap) (inst : Nat) (Good : List Effect → Prop) : Prop where
  gathers : Gathers Good
  common : ∀ r, r.folder = "" ∨ r.folder = "bin" ∨ r.folder = "lib" → Admitted shipped r →
    (∃ path, host.realpath path = some r.source) → Good [.recorded r]
  override : ∀ r, r.folder = overrideFolder inst → Admitted shipped r →
    (∃ path, host.realpath path = some r.source) → Good [.overridden,.recorded r]
  named : Good [.overridden]

theorem check_effects : (checkPlan host shipped folder filePath realName).effects = [] ∨
    ∃ r, (checkPlan host shipped folder filePath realName).effects = [.recorded r] ∧ r.folder = folder ∧
      Admitted shipped r ∧ ∃ path, host.realpath path = some r.source := by
  unfold checkPlan answered
  cases real : host.realpath filePath with
  | none => exact .inl rfl
  | some path =>
    simp only [Plan.bind,Plan.pure,nil_append]
    split
    · exact .inl rfl
    · rename_i admitted
      refine .inr ⟨⟨folder,realName,path⟩,rfl,rfl,?_,filePath,real⟩
      by_cases none : getSourcePath shipped folder realName = ""
      · exact .inl none
      · exact .inr (by_contra fun differs => admitted ⟨none,differs⟩)

section Assembling
variable {Good : List Effect → Prop} (assembled : Assembled host shipped inst Good)
include assembled

theorem check_assembled (common : folder = "" ∨ folder = "bin" ∨ folder = "lib") :
    Good (checkPlan host shipped folder filePath realName).effects := by
  rcases check_effects with nothing | ⟨r,one,here,admitted,real⟩
  · rw [nothing]; exact assembled.gathers.nil
  · rw [one]; exact assembled.common r (by rwa [here]) admitted real

theorem place_assembled : Good (placePlan host shipped inst filePath realName policy).effects := by
  refine gathers_catching assembled.gathers (check_assembled assembled (.inr (.inr rfl))) fun message => ?_
  cases policy with
  | Stage => exact assembled.gathers.nil
  | Ignore =>
    have together : ((emit .overridden).bind fun _ =>
        checkPlan host shipped (overrideFolder inst) filePath realName).effects =
        .overridden :: (checkPlan host shipped (overrideFolder inst) filePath realName).effects := rfl
    rw [together]
    rcases check_effects with nothing | ⟨r,one,here,admitted,real⟩
    · rw [nothing]; exact assembled.named
    · rw [one]; exact assembled.override r here admitted real

theorem located_assembled {next : String → String → Plan Effect α} (rest : ∀ filePath realName, Good (next filePath realName).effects) :
    Good (locatedPlan host valid located missing next).effects := by
  have silent : ∀ {β : Type} {plan : Plan Effect β}, plan.effects = [] → Good plan.effects := fun none => none ▸ assembled.gathers.nil
  refine gathers_bind assembled.gathers (silent validPlan_silent) fun _ => ?_
  refine gathers_bind assembled.gathers (silent answered_silent) fun filePath => ?_
  exact gathers_bind assembled.gathers (silent answered_silent) fun realName => rest filePath realName

theorem deps_assembled : Good (depsPlan host shipped valid inst policy filePath).effects := by
  cases policy with
  | Ignore => exact assembled.gathers.nil
  | Stage =>
    unfold depsPlan
    cases host.getFileDependencies filePath with
    | none => exact assembled.gathers.nil
    | some libArray =>
      exact gathers_each assembled.gathers
        (fun _ => located_assembled assembled fun _ _ => place_assembled assembled) libArray

theorem plan_assembled (call : AddCall) : Good (call.plan host shipped valid inst).effects := by
  have ends : ∀ added : Added, Good (Plan.pure added : Plan Effect Added).effects := fun _ => assembled.gathers.nil
  cases call with
  | binary rawName policy =>
    refine located_assembled assembled fun filePath realName => ?_
    split
    · exact gathers_bind assembled.gathers (check_assembled assembled (.inr (.inl rfl))) fun _ =>
        gathers_bind assembled.gathers (deps_assembled assembled) fun _ => ends _
    · exact assembled.gathers.nil
  | library rawName policy =>
    exact located_assembled assembled fun filePath realName =>
      gathers_bind assembled.gathers (place_assembled assembled) fun _ =>
        gathers_bind assembled.gathers (deps_assembled assembled) fun _ => ends _
  | libDir rawPath =>
    exact located_assembled assembled fun _ _ =>
      gathers_bind assembled.gathers (check_assembled assembled (.inr (.inr rfl))) fun _ => ends _
  | file rawName =>
    exact located_assembled assembled fun _ _ =>
      gathers_bind assembled.gathers (check_assembled assembled (.inl rfl)) fun _ => ends _

theorem row_assembled (valid : Bool) (calls : List AddCall) : Good (each (AddCall.plan host shipped valid inst) calls).effects :=
  gathers_each assembled.gathers (plan_assembled assembled) calls

end Assembling

theorem lawful_assembled : Assembled host shipped inst (fun effects => ∀ e ∈ effects, Lawful host shipped inst e) where
  gathers := gathers_all
  common := by
    intro r common admitted real e present other same
    subst same
    cases mem_singleton.mp present
    exact ⟨common.imp id (Or.imp id .inl),admitted,real⟩
  override := by
    intro r here admitted real e present other same
    subst same
    simp only [mem_cons,not_mem_nil,or_false,reduceCtorEq,false_or,Effect.recorded.injEq] at present
    subst present
    exact ⟨.inr (.inr (.inr here)),admitted,real⟩
  named := by
    intro e present r same
    subst same
    simp at present

theorem check_records (ended : (checkPlan host shipped folder filePath realName).outcome = .ok r) :
    records (checkPlan host shipped folder filePath realName).effects = [r] := by
  obtain ⟨path,_,rest,together⟩ := bind_ok ended
  rw [checkPlan,together,answered_silent]
  split at rest
  · cases rest
  · rename_i admitted
    simp only [if_neg admitted]
    cases rest
    rfl

theorem place_records (ended : (placePlan host shipped inst filePath realName policy).outcome = .ok r) :
    records (placePlan host shipped inst filePath realName policy).effects = [r] := by
  unfold placePlan catching at ended ⊢
  cases first : (checkPlan host shipped "lib" filePath realName).outcome with
  | ok value =>
    simp only [first] at ended ⊢
    cases ended
    exact check_records first
  | error message =>
    simp only [first] at ended ⊢
    have silent : (checkPlan host shipped "lib" filePath realName).effects = [] := by
      unfold checkPlan answered at first ⊢
      cases real : host.realpath filePath with
      | none => rfl
      | some path =>
        simp only [real,Plan.bind,Plan.pure] at first ⊢
        split
        · rfl
        · rename_i admitted; simp [admitted,emit] at first
    cases policy with
    | Stage => cases ended
    | Ignore =>
      obtain ⟨_,_,rest,together⟩ := bind_ok ended
      rw [silent]
      exact check_records rest

theorem located_records (ended : (locatedPlan host valid located missing more).outcome = .ok result) :
    ∃ filePath realName, located = some filePath ∧ host.basename filePath = some realName ∧ (more filePath realName).outcome = .ok result ∧
      (locatedPlan host valid located missing more).effects = (more filePath realName).effects := by
  obtain ⟨_,_,rest,together⟩ := bind_ok ended
  obtain ⟨filePath,found,rest,together'⟩ := bind_ok rest
  obtain ⟨realName,named,rest,together''⟩ := bind_ok rest
  have path : located = some filePath := by
    cases located with
    | none => cases found
    | some value => cases found; rfl
  have name : host.basename filePath = some realName := by
    unfold answered at named
    split at named
    · rename_i value same; cases named; exact same
    · cases named
  refine ⟨filePath,realName,path,name,rest,?_⟩
  rw [locatedPlan,together,together',together'',validPlan_silent,answered_silent,answered_silent]
  simp

theorem each_records (ended : (each (dependencyPlan host shipped valid inst) items).outcome = .ok taken) :
    records (each (dependencyPlan host shipped valid inst) items).effects = taken := by
  induction items generalizing taken with
  | nil => cases ended; rfl
  | cons item rest ih =>
    obtain ⟨one,first,more,together⟩ := bind_ok ended
    obtain ⟨others,later,last,together'⟩ := bind_ok more
    cases last
    obtain ⟨_,_,_,_,placed,same⟩ := located_records first
    rw [each,together,together']
    have head : records (dependencyPlan host shipped valid inst item).effects = [one] := by
      rw [dependencyPlan,same]; exact place_records placed
    unfold records at head ih ⊢
    rw [filterMap_append,filterMap_append,head,ih later]
    simp [Plan.pure]

theorem deps_records (ended : (depsPlan host shipped valid inst policy filePath).outcome = .ok taken) :
    records (depsPlan host shipped valid inst policy filePath).effects = taken := by
  unfold depsPlan at ended ⊢
  cases policy with
  | Ignore => cases ended; rfl
  | Stage =>
    cases listed : host.getFileDependencies filePath with
    | none => simp only [listed] at ended ⊢; cases ended; rfl
    | some libArray => simp only [listed] at ended ⊢; exact each_records ended

theorem withDeps_records (own : ∀ r, first.outcome = .ok r → records first.effects = [r])
    (ended : (withDeps host shipped valid inst first policy filePath).outcome = .ok added) :
    records (withDeps host shipped valid inst first policy filePath).effects = added.records := by
  obtain ⟨one,head,more,together⟩ := bind_ok ended
  obtain ⟨others,tail,last,together'⟩ := bind_ok more
  cases last
  have headRecords := own one head
  have tailRecords := deps_records tail
  unfold records at headRecords tailRecords ⊢
  rw [withDeps,together,together',filterMap_append,filterMap_append,headRecords,tailRecords]
  simp [Plan.pure,Added.records]

theorem plan_records {call : AddCall} (ended : (call.plan host shipped valid inst).outcome = .ok added) :
    records (call.plan host shipped valid inst).effects = added.records := by
  cases call with
  | binary rawName policy =>
    obtain ⟨filePath,realName,_,_,rest,same⟩ := located_records ended
    rw [AddCall.plan,same]
    split at rest
    · rename_i perms
      rw [if_pos perms]
      exact withDeps_records (fun _ => check_records) rest
    · cases rest
  | library rawName policy =>
    obtain ⟨filePath,realName,_,_,rest,same⟩ := located_records ended
    rw [AddCall.plan,same]
    exact withDeps_records (fun _ => place_records) rest
  | libDir rawPath | file rawName =>
    obtain ⟨filePath,realName,_,_,rest,same⟩ := located_records ended
    obtain ⟨own,placed,last,together⟩ := bind_ok rest
    cases last
    rw [AddCall.plan,same,together]
    simpa [Plan.pure,Added.records] using check_records placed

theorem check_folder (ended : (checkPlan host shipped folder filePath realName).outcome = .ok r) : r.folder = folder := by
  have one := check_records ended
  rcases check_effects with nothing | ⟨other,single,here,_⟩
  · rw [nothing] at one; cases one
  · rw [single] at one; cases one; exact here

theorem place_folder (ended : (placePlan host shipped inst filePath realName policy).outcome = .ok r) :
    r.folder = "lib" ∨ r.folder = overrideFolder inst := by
  unfold placePlan catching at ended
  cases first : (checkPlan host shipped "lib" filePath realName).outcome with
  | ok value =>
    simp only [first] at ended
    cases ended
    exact .inl (check_folder first)
  | error message =>
    simp only [first] at ended
    cases policy with
    | Stage => cases ended
    | Ignore =>
      obtain ⟨_,_,rest,_⟩ := bind_ok ended
      exact .inr (check_folder rest)

theorem deps_folder (ended : (depsPlan host shipped valid inst policy filePath).outcome = .ok deps) :
    ∀ d ∈ deps, d.folder = "lib" ∨ d.folder = overrideFolder inst := by
  intro d inside
  unfold depsPlan at ended
  cases policy with
  | Ignore => cases ended; cases inside
  | Stage =>
    cases listed : host.getFileDependencies filePath with
    | none => simp only [listed] at ended; cases ended; cases inside
    | some libArray =>
      simp only [listed] at ended
      rw [← done_each ended] at inside
      obtain ⟨rawName,_,one,_⟩ := done_mem inside
      obtain ⟨_,_,_,_,placed,_⟩ := located_records one
      exact place_folder placed

theorem plan_deps {call : AddCall} (ended : (call.plan host shipped valid inst).outcome = .ok added) :
    ∀ d ∈ added.deps, d.folder = "lib" ∨ d.folder = overrideFolder inst := by
  have staged : ∀ {first : Plan Effect Record} {policy : DepsPolicy} {filePath : String},
      (withDeps host shipped valid inst first policy filePath).outcome = .ok added →
      ∀ d ∈ added.deps, d.folder = "lib" ∨ d.folder = overrideFolder inst := by
    intro first policy filePath whole
    obtain ⟨own,_,more,_⟩ := bind_ok whole
    obtain ⟨deps,listed,last,_⟩ := bind_ok more
    cases last
    exact deps_folder listed
  cases call with
  | binary rawName policy =>
    obtain ⟨filePath,realName,_,_,rest,_⟩ := located_records ended
    split at rest
    · exact staged rest
    · cases rest
  | library rawName policy =>
    obtain ⟨filePath,realName,_,_,rest,_⟩ := located_records ended
    exact staged rest
  | libDir rawPath | file rawName =>
    obtain ⟨filePath,realName,_,_,rest,_⟩ := located_records ended
    obtain ⟨own,_,last,_⟩ := bind_ok rest
    cases last
    intro d inside
    cases inside

end Facts

end CommonTools.Transfer
