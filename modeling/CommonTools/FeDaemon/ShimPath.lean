import CommonTools.Library.Insertions
import CommonTools.FeDaemon.LaunchEnvironment
import CommonTools.FeDaemon.Registry

namespace CommonTools.FeDaemon
open Environments Texts Insertions List

section Wrapper

def pathName : Bytes := ascii "PATH"

def directories (path : Bytes) : List Bytes := if path = [] then [] else path.splitOn 58

def Host.within (host : Host) (env : Environment Bytes Bytes) : Host := {host with path := env pathName}

variable (host : Host) (env : Environment Bytes Bytes) (shimData : ShimData) (launchData : LaunchData) (launcherPath : Bytes)

def shimDirectory : Bytes := shimData.temporaryShimBinDir ++ host.shimToken

def shimmedLaunch : LaunchData :=
  shimLaunchData (host.within env) shimData launchData launcherPath (shimDirectory host shimData)

-- What forkExec starts the wrapper with: none where an entry cannot be parsed.
def WrapperSees (seen : Environment Bytes Bytes) : Prop :=
  ∃ envMap order, parseEnvs [] (shimmedLaunch host env shimData launchData launcherPath).envList = .ok envMap ∧
    order.Perm envMap ∧
    seen = childEnvironment env order (shimmedLaunch host env shimData launchData launcherPath).envBlacklist

def meantDirectories : List Bytes :=
  insertAfter (host.parentPath launcherPath) (shimDirectory host shimData) (directories ((env pathName).getD []))

def ShimInserted : Prop :=
  ∀ seen, WrapperSees host env shimData launchData launcherPath seen →
    directories ((seen pathName).getD []) = meantDirectories host env shimData launcherPath

def ShimPresent : Prop :=
  ∀ seen, WrapperSees host env shimData launchData launcherPath seen →
    shimDirectory host shimData ∈ directories ((seen pathName).getD [])

def FoundBefore (mark : Bytes) (entries : List Bytes) : Prop := mark ∈ entries.dropLast ∨ mark ∉ entries

instance (mark : Bytes) (entries : List Bytes) : Decidable (FoundBefore mark entries) := inferInstanceAs (Decidable (_ ∨ _))

def CanStand : Prop :=
  58 ∉ shimDirectory host shimData ∧ (shimDirectory host shimData ≠ [] ∨ (env pathName).getD [] ≠ [])

end Wrapper

section Path
variable {mark new : Bytes}

-- The loop, directory by directory. The last one is not looked at where it is empty.
def behindMark (mark new : Bytes) : List Bytes → Option (List Bytes)
  | [] => none
  | [directory] => if directory = mark ∧ directory ≠ [] then some [directory,new,[]] else none
  | directory :: next :: rest =>
    if directory = mark then some (directory :: new :: next :: rest)
    else (behindMark mark new (next :: rest)).map (directory :: ·)

theorem behindMark_cons (more : rest ≠ []) : behindMark mark new (directory :: rest) =
      if directory = mark then some (directory :: new :: rest) else (behindMark mark new rest).map (directory :: ·) := by
  cases rest with
  | nil => exact absurd rfl more
  | cons next rest => rfl

theorem behindMark_ne (loop : behindMark mark new entries = some found) : found ≠ [] := by
  rintro rfl
  cases entries with
  | nil => cases loop
  | cons directory rest =>
    cases rest with
    | nil =>
      rw [behindMark] at loop
      split at loop <;> cases loop
    | cons next rest =>
      rw [behindMark] at loop
      split at loop
      · cases loop
      · obtain ⟨_,_,same⟩ := Option.map_eq_some_iff.mp loop
        cases same

theorem shimAfter_loop : ∀ fuel passed, path.length ≤ fuel → shimAfter mark new fuel passed path =
      (behindMark mark new (path.splitOn 58)).map fun found => passed ++ [58].intercalate found := by
  induction path using cut_induction (58 : UInt8) with
  | single path free =>
    intro fuel passed enough
    rw [splitOn_eq_singleton free,behindMark]
    cases path with
    | nil => cases fuel <;> simp [shimAfter]
    | cons b path =>
      obtain ⟨fuel,rfl⟩ := Nat.exists_eq_add_one_of_ne_zero (Nat.ne_zero_of_lt enough)
      have ended : shimAfter mark new fuel (passed ++ (b :: path) ++ [58]) [] = none := by cases fuel <;> rfl
      simp only [shimAfter,takeWhile_free free,dropWhile_free free,drop_nil,ended]
      by_cases here : b :: path = mark
      · simp
      · simp [here]
  | cut directory rest free ih =>
    intro fuel passed enough
    rw [length_append,length_cons] at enough
    obtain ⟨fuel,rfl⟩ := Nat.exists_eq_add_one_of_ne_zero (show fuel ≠ 0 by omega)
    have pieces := splitOn_ne_nil 58 rest
    have text : [58].intercalate (rest.splitOn 58) = rest := intercalate_splitOn _
    rw [splitOn_append_cons_self_of_not_mem free,behindMark_cons pieces,shimAfter]
    · simp only [takeWhile_sep free,dropWhile_sep free,drop_succ_cons,drop_zero]
      rw [ih fuel _ (by omega)]
      by_cases here : directory = mark
      · obtain ⟨next,later,split⟩ := exists_cons_of_ne_nil pieces
        rw [split] at text ⊢
        simp [here,intercalate_cons_cons,text]
      · rw [if_neg here,if_neg here,Option.map_map]
        refine Option.map_congr fun found loop => ?_
        obtain ⟨next,later,rfl⟩ := exists_cons_of_ne_nil (behindMark_ne loop)
        simp [intercalate_cons_cons]
    · simp

theorem behindMark_early (early : mark ∈ entries.dropLast) : behindMark mark new entries = some (insertAfter mark new entries) := by
  induction entries with
  | nil => cases early
  | cons directory rest ih =>
    cases rest with
    | nil => cases early
    | cons next rest =>
      rw [behindMark]
      by_cases here : directory = mark
      · subst here
        rw [if_pos rfl,insertAfter_head]
      · have later := (mem_cons.mp early).resolve_left (Ne.symm here)
        rw [if_neg here,ih later,insertAfter_later here (mem_of_mem_dropLast later)]
        rfl

theorem behindMark_absent (absent : mark ∉ entries) : behindMark mark new entries = none := by
  induction entries with
  | nil => rfl
  | cons directory rest ih =>
    obtain ⟨apart,later⟩ := not_or.mp (mem_cons.not.mp absent)
    cases rest with
    | nil => simp [behindMark,Ne.symm apart]
    | cons next rest => rw [behindMark,if_neg (Ne.symm apart),ih later]; rfl

theorem behindMark_late (absent : mark ∉ init) :
    behindMark mark new (init ++ [mark]) = if mark = [] then none else some (init ++ [mark,new,[]]) := by
  induction init with
  | nil => by_cases empty : mark = [] <;> simp [behindMark,empty]
  | cons directory init ih =>
    obtain ⟨apart,later⟩ := not_or.mp (mem_cons.not.mp absent)
    rw [cons_append,behindMark_cons (by simp),if_neg (Ne.symm apart),ih later]
    by_cases empty : mark = [] <;> simp [empty]

def placed (mark new : Bytes) (entries : List Bytes) : List Bytes := (behindMark mark new entries).getD (new :: entries)

theorem placed_found (found : FoundBefore mark entries) : placed mark new entries = insertAfter mark new entries := by
  unfold placed
  rcases found with early | absent
  · rw [behindMark_early early]
    rfl
  · rw [behindMark_absent absent,insertAfter_absent absent]
    rfl

theorem placed_late (absent : mark ∉ init) : placed mark new (init ++ [mark]) =
    if mark = [] then new :: (init ++ [mark]) else init ++ [mark,new,[]] := by
  rw [placed,behindMark_late absent]
  split <;> rfl

theorem found_late (late : ¬ FoundBefore mark entries) : ∃ init, entries = init ++ [mark] ∧ mark ∉ init := by
  obtain ⟨early,present⟩ := not_or.mp late
  have inside := not_not.mp present
  have split := dropLast_append_getLast (ne_nil_of_mem inside)
  rw [← split,mem_append,mem_singleton] at inside
  have last := inside.resolve_left early
  exact ⟨entries.dropLast,by rw [last,split],early⟩

theorem placed_members (mark new : Bytes) (entries : List Bytes) : new ∈ placed mark new entries ∧
    entries.length < (placed mark new entries).length ∧ ∀ entry ∈ placed mark new entries, entry = new ∨ entry = [] ∨ entry ∈ entries := by
  by_cases found : FoundBefore mark entries
  · rw [placed_found found]
    have same := insertAfter_perm mark new entries
    refine ⟨same.mem_iff.mpr mem_cons_self,by rw [same.length_eq]; simp,fun entry inside => ?_⟩
    exact (mem_cons.mp (same.mem_iff.mp inside)).imp_right .inr
  · obtain ⟨init,rfl,absent⟩ := found_late found
    rw [placed_late absent]
    split
    · refine ⟨mem_cons_self,by simp,fun entry inside => ?_⟩
      exact (mem_cons.mp inside).imp_right .inr
    · refine ⟨by simp,by simp,fun entry inside => ?_⟩
      simp only [mem_append,mem_cons,not_mem_nil,or_false] at inside ⊢
      tauto

theorem placed_exact (some' : entries ≠ [[]]) : placed mark new entries = insertAfter mark new entries ↔ FoundBefore mark entries := by
  refine ⟨fun same => ?_,placed_found⟩
  by_contra late
  obtain ⟨init,rfl,absent⟩ := found_late late
  rw [placed_late absent,insertAfter_last absent] at same
  split at same
  · rename_i empty
    subst empty
    cases init with
    | nil => exact some' rfl
    | cons first init =>
      obtain ⟨rfl,rest⟩ := List.cons.inj same
      have whole : (new :: init) ++ [[]] = (init ++ [[]]) ++ [new] := by simpa using rest
      have ends := singleton_inj.mp (append_inj' whole rfl).2
      exact absent (by simp [ends])
  · have lengths := congrArg List.length same
    simp at lengths

end Path

section Directories
variable {path : Bytes}

theorem directories_free (inside : directory ∈ directories path) : 58 ∉ directory := by
  unfold directories at inside
  split at inside
  · cases inside
  · exact splitOn_free inside

theorem directories_joined (more : 1 < entries.length) (free : ∀ entry ∈ entries, 58 ∉ entry) :
    directories ([58].intercalate entries) = entries := by
  obtain ⟨one,two,rest,rfl⟩ : ∃ one two rest, entries = one :: two :: rest := by
    match entries, more with
    | one :: two :: rest, _ => exact ⟨one,two,rest,rfl⟩
  rw [directories,if_neg (by simp [intercalate_cons_cons]),splitOn_intercalate _ free (by simp)]

theorem directories_single (free : 58 ∉ directory) (nonempty : directory ≠ []) : directories directory = [directory] := by
  rw [directories,if_neg nonempty,splitOn_eq_singleton free]

theorem directories_split (nonempty : path ≠ []) :
    [58].intercalate (directories path) = path ∧ directories path ≠ [] ∧ directories path ≠ [[]] := by
  have text : [58].intercalate (path.splitOn 58) = path := intercalate_splitOn _
  rw [directories,if_neg nonempty]
  refine ⟨text,splitOn_ne_nil _ _,fun blank => nonempty ?_⟩
  rw [← text,blank]
  rfl

variable (host : Host) (launcherPath : Bytes) {new : Bytes}

theorem shimmedPath_joined (new : Bytes) (nonempty : path ≠ []) : shimmedPath host launcherPath new path =
    [58].intercalate (placed (host.parentPath launcherPath) new (directories path)) := by
  obtain ⟨text,some',_⟩ := directories_split nonempty
  have pieces : path.splitOn 58 = directories path := by rw [directories,if_neg nonempty]
  unfold shimmedPath placed
  rw [shimAfter_loop path.length [] (Nat.le_refl _),pieces]
  cases behindMark (host.parentPath launcherPath) new (directories path) with
  | some found => rfl
  | none =>
    obtain ⟨first,later,split⟩ := exists_cons_of_ne_nil some'
    rw [split] at text ⊢
    simp [intercalate_cons_cons,text,nonempty]

theorem shimmedPath_directories (sepless : 58 ∉ new) (nonempty : path ≠ []) :
    directories (shimmedPath host launcherPath new path) = placed (host.parentPath launcherPath) new (directories path) := by
  obtain ⟨_,longer,members⟩ := placed_members (host.parentPath launcherPath) new (directories path)
  have some' := length_pos_iff.mpr (directories_split nonempty).2.1
  rw [shimmedPath_joined host launcherPath new nonempty]
  refine directories_joined (by omega) fun entry inside => ?_
  rcases members entry inside with rfl | rfl | old
  · exact sepless
  · simp
  · exact directories_free old

theorem shimmedPath_alone : shimmedPath host launcherPath new [] = new := by
  simp [shimmedPath,shimAfter]

theorem shimmedPath_inserted : directories (shimmedPath host launcherPath new path) =
      insertAfter (host.parentPath launcherPath) new (directories path) ↔
    (58 ∉ new ∧ (new ≠ [] ∨ path ≠ [])) ∧ FoundBefore (host.parentPath launcherPath) (directories path) := by
  by_cases sepless : 58 ∉ new
  · by_cases nonempty : path = []
    · subst nonempty
      have none' : directories [] = [] := rfl
      rw [shimmedPath_alone,none',insertAfter_absent (by simp)]
      by_cases blank : new = []
      · subst blank
        simp [directories]
      · rw [directories_single sepless blank]
        simp [sepless,blank,FoundBefore]
    · rw [shimmedPath_directories host launcherPath sepless nonempty,placed_exact (directories_split nonempty).2.2]
      simp [sepless,nonempty]
  · refine ⟨fun same => ?_,fun both => absurd both.1.1 sepless⟩
    have inside : new ∈ directories (shimmedPath host launcherPath new path) := by
      rw [same,(insertAfter_perm _ new _).mem_iff]
      exact mem_cons_self
    exact absurd (directories_free inside) sepless

theorem shimmedPath_present : new ∈ directories (shimmedPath host launcherPath new path) ↔ 58 ∉ new ∧ (new ≠ [] ∨ path ≠ []) := by
  by_cases sepless : 58 ∉ new
  · by_cases nonempty : path = []
    · subst nonempty
      rw [shimmedPath_alone]
      by_cases blank : new = []
      · subst blank
        simp [directories]
      · rw [directories_single sepless blank]
        simp [sepless,blank]
    · rw [shimmedPath_directories host launcherPath sepless nonempty]
      simp [sepless,nonempty,(placed_members (host.parentPath launcherPath) new (directories path)).1]
  · exact ⟨fun inside => absurd (directories_free inside) sepless,fun both => absurd both.1 sepless⟩

end Directories

section Merge
variable {host : Host} {env : Environment Bytes Bytes} {shimData : ShimData} {launchData : LaunchData} {launcherPath : Bytes}

def LaunchData.ownPath (data : LaunchData) : Option Bytes := first data.entries pathName

theorem kept_getD : (kept value).getD [] = value := by
  unfold kept
  split
  · rename_i empty
    exact empty.symm
  · rfl

theorem parseEnvs_unnamed (inside : text ∈ texts) (unnamed : 61 ∉ text) : ∀ envMap parsed, parseEnvs envMap texts ≠ .ok parsed := by
  induction texts with
  | nil => cases inside
  | cons head texts ih =>
    intro envMap parsed read
    rw [parseEnvs] at read
    rcases mem_cons.mp inside with rfl | later
    · rw [parseEnv,dropWhile_free unnamed] at read
      cases read
    · cases entry : parseEnv head with
      | error reason => rw [entry] at read; cases read
      | ok entry' =>
        rw [entry] at read
        exact ih later _ _ read

theorem setting_entry (free : 61 ∉ ascii name) : envEntry (setting name value) = (ascii name,value) := by
  have text : setting name value = ascii name ++ 61 :: value := by simp [setting,ascii]
  rw [envEntry,text,takeWhile_sep free,dropWhile_sep free]
  rfl

theorem setting_named : 61 ∈ setting name value := by
  simp [setting,ascii]

def additions (host : Host) (shimData : ShimData) (launchData : LaunchData) (launcherPath shimDirectory : Bytes) :
    List (Bytes × Bytes) :=
  let (stdin,stdout,stderr) := host.descriptors launchData.stdio
  [(pathName,shimmedPath host launcherPath shimDirectory (host.path.getD [])),
    (ascii "CTI_MPIR_SHIM_INPUT_FD",showInt host.shimPipe.1),
    (ascii "CTI_MPIR_SHIM_OUTPUT_FD",showInt host.shimPipe.2),
    (ascii "CTI_MPIR_LAUNCHER_PATH",shimData.shimmedLauncherPath),
    (ascii "CTI_MPIR_ORIGINAL_PATH",host.path.getD []),
    (ascii "CTI_MPIR_STDIN_FD",showInt stdin),
    (ascii "CTI_MPIR_STDOUT_FD",showInt stdout),
    (ascii "CTI_MPIR_STDERR_FD",showInt stderr),
    (ascii "CTI_MPIR_SHIM_TOKEN",host.shimToken)]

theorem shimLaunchData_entries {launchData : LaunchData} {launcherPath shimDirectory : Bytes} :
    (shimLaunchData host shimData launchData launcherPath shimDirectory).entries =
      launchData.entries ++ additions host shimData launchData launcherPath shimDirectory := by
  unfold LaunchData.entries shimLaunchData additions
  simp (disch := decide) only [map_append,map_cons,map_nil,setting_entry,pathName]

theorem shimmed_named (named : ∀ text ∈ launchData.envList, 61 ∈ text) :
    ∀ text ∈ (shimmedLaunch host env shimData launchData launcherPath).envList, 61 ∈ text := by
  refine forall_mem_append.mpr ⟨named,?_⟩
  simp only [forall_mem_cons,setting_named,true_and]
  exact forall_mem_nil _

theorem shimmed_first : first (shimmedLaunch host env shimData launchData launcherPath).entries pathName =
    some (launchData.ownPath.getD (shimmedPath host launcherPath (shimDirectory host shimData) ((env pathName).getD []))) := by
  rw [shimmedLaunch,shimLaunchData_entries,first_append]
  change launchData.ownPath.or _ = _
  cases launchData.ownPath <;> rfl

theorem wrapper_directories (sees : WrapperSees host env shimData launchData launcherPath seen)
    (named : ∀ text ∈ launchData.envList, 61 ∈ text) (unlisted : pathName ∉ launchData.envBlacklist) :
    directories ((seen pathName).getD []) = directories
      (launchData.ownPath.getD (shimmedPath host launcherPath (shimDirectory host shimData) ((env pathName).getD []))) := by
  obtain ⟨envMap,order,parsed,listed,rfl⟩ := sees
  rw [parseEnvs_named (shimmed_named named) []] at parsed
  cases parsed
  have value := childEnvironment_first listed env (show pathName ∉ (shimmedLaunch host env shimData launchData launcherPath).envBlacklist
    from unlisted)
  rw [value]
  change directories (((first (shimmedLaunch host env shimData launchData launcherPath).entries pathName).map kept).getD
    (env pathName) |>.getD []) = _
  rw [shimmed_first]
  exact congrArg directories kept_getD

theorem wrapper_property (property : List Bytes → Prop) (refuses : ¬ property []) :
    (∀ seen, WrapperSees host env shimData launchData launcherPath seen → property (directories ((seen pathName).getD []))) ↔
      (∃ text ∈ launchData.envList, 61 ∉ text) ∨ pathName ∉ launchData.envBlacklist ∧ property (directories
        (launchData.ownPath.getD (shimmedPath host launcherPath (shimDirectory host shimData) ((env pathName).getD [])))) := by
  by_cases named : ∀ text ∈ launchData.envList, 61 ∈ text
  · have none' : ¬ ∃ text ∈ launchData.envList, 61 ∉ text := by
      rintro ⟨text,inside,unnamed⟩
      exact unnamed (named text inside)
    simp only [none',false_or]
    constructor
    · intro every
      obtain ⟨seen,sees⟩ : ∃ seen, WrapperSees host env shimData launchData launcherPath seen :=
        ⟨_,_,_,parseEnvs_named (shimmed_named named) [],.rfl,rfl⟩
      have unlisted : pathName ∉ launchData.envBlacklist := by
        intro listed
        have wrong := every seen sees
        have gone : seen pathName = none := by
          obtain ⟨_,_,_,_,rfl⟩ := sees
          exact blacklisted listed
        rw [gone] at wrong
        exact refuses wrong
      exact ⟨unlisted,wrapper_directories sees named unlisted ▸ every seen sees⟩
    · rintro ⟨unlisted,right⟩ seen sees
      rw [wrapper_directories sees named unlisted]
      exact right
  · obtain ⟨text,inside,unnamed⟩ : ∃ text ∈ launchData.envList, 61 ∉ text := by simpa using named
    refine ⟨fun _ => .inl ⟨text,inside,unnamed⟩,?_⟩
    rintro _ seen ⟨envMap,order,parsed,_⟩
    exact absurd parsed (parseEnvs_unnamed (mem_append_left _ inside) unnamed _ _)

end Merge

-- The wrapper sees the shim directory in its place exactly if the caller leaves PATH alone, and the
-- directory of the launcher script is not met for the first time at the end of PATH.
theorem shim_path_exact (host : Host) (env : Environment Bytes Bytes) (shimData : ShimData) (launchData : LaunchData)
    (launcherPath : Bytes) :
    (ShimInserted host env shimData launchData launcherPath ↔
      (∃ text ∈ launchData.envList, 61 ∉ text) ∨ pathName ∉ launchData.envBlacklist ∧
        match launchData.ownPath with
        | some value => directories value = meantDirectories host env shimData launcherPath
        | none => CanStand host env shimData ∧
            FoundBefore (host.parentPath launcherPath) (directories ((env pathName).getD []))) ∧
    (ShimPresent host env shimData launchData launcherPath ↔
      (∃ text ∈ launchData.envList, 61 ∉ text) ∨ pathName ∉ launchData.envBlacklist ∧
        match launchData.ownPath with
        | some value => shimDirectory host shimData ∈ directories value
        | none => CanStand host env shimData) := by
  constructor
  · have refuses : ¬ [] = meantDirectories host env shimData launcherPath := by
      intro same
      have lengths := (insertAfter_perm (host.parentPath launcherPath) (shimDirectory host shimData)
        (directories ((env pathName).getD []))).length_eq
      rw [← meantDirectories,← same] at lengths
      cases lengths
    refine (wrapper_property (· = meantDirectories host env shimData launcherPath) refuses).trans ?_
    refine or_congr_right (and_congr_right fun _ => ?_)
    cases launchData.ownPath with
    | some value => exact Iff.rfl
    | none => exact shimmedPath_inserted host launcherPath
  · refine (wrapper_property (shimDirectory host shimData ∈ ·) (by simp)).trans ?_
    refine or_congr_right (and_congr_right fun _ => ?_)
    cases launchData.ownPath with
    | some value => exact Iff.rfl
    | none => exact shimmedPath_present host launcherPath

def binHost : Host := {bareHost with parentPath := fun _ => ascii "/bin", shimToken := ascii "0a"}

-- Behind the last directory comes an empty one, and the PATH of the caller is kept as it is.
theorem shim_path_wrong :
    ¬ ShimInserted binHost (fun _ => some (ascii "/sbin:/bin")) ⟨[],ascii "/tmp/",[]⟩ (launchWith [] []) (ascii "/bin/srun") ∧
    ¬ ShimPresent binHost (fun _ => some (ascii "/bin:/sbin")) ⟨[],ascii "/tmp/",[]⟩ (launchWith [ascii "PATH=/opt"] [])
      (ascii "/bin/srun") := by
  constructor
  · intro inserted
    have wrong := (wrapper_property (· = _) (by decide)).mp inserted
    exact absurd wrong (by decide)
  · intro present
    have wrong := (wrapper_property (_ ∈ ·) (by simp)).mp present
    exact absurd wrong (by decide)

end CommonTools.FeDaemon
