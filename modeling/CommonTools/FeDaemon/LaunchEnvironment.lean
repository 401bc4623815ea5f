import CommonTools.Library.Environments
import CommonTools.FeDaemon.Framing

namespace CommonTools.FeDaemon
open Environments Texts List Environment

-- find("="), and the two substr around it.
def parseEnv (envVarVal : Bytes) : Except Bytes (Bytes × Bytes) :=
  match envVarVal.dropWhile (· ≠ 61) with
  | [] => .error (ascii "failed to parse env var: " ++ envVarVal)
  | _ :: value => .ok (envVarVal.takeWhile (· ≠ 61),value)

-- A name that is in the map keeps its value.
def emplace (envMap : List (Bytes × Bytes)) (entry : Bytes × Bytes) : List (Bytes × Bytes) :=
  if entry.1 ∈ envMap.map Prod.fst then envMap else envMap ++ [entry]

def parseEnvs (envMap : List (Bytes × Bytes)) : List Bytes → Except Bytes (List (Bytes × Bytes))
  | [] => .ok envMap
  | envVarVal :: rest => do
    let entry ← parseEnv envVarVal
    parseEnvs (emplace envMap entry) rest

def applyEntry (env : Environment Bytes Bytes) (entry : Bytes × Bytes) : Environment Bytes Bytes :=
  if entry.2 = [] then env.unset entry.1 else env.set entry.1 entry.2

-- forkExec, in the child. The map is unordered: `order` is how it is gone through.
def childEnvironment (env : Environment Bytes Bytes) (order : List (Bytes × Bytes)) (blacklist : List Bytes) :
    Environment Bytes Bytes := (order.foldl applyEntry env).unsetAll blacklist

-- launchMPIR, where the launcher inherits what the daemon has set.
def launcherEnvironment (env : Environment Bytes Bytes) (data : LaunchData) : Environment Bytes Bytes :=
  (env.setAll (data.envList.map (splitTwo · 61))).unsetAll data.envBlacklist

def NamedEntry (text : Bytes) : Prop := 61 ∈ text ∧ text.head? ≠ some 61

instance (text : Bytes) : Decidable (NamedEntry text) := inferInstanceAs (Decidable (_ ∧ _))

def envEntry (text : Bytes) : Bytes × Bytes := (text.takeWhile (· ≠ 61),(text.dropWhile (· ≠ 61)).tail)

def LaunchData.entries (data : LaunchData) : List (Bytes × Bytes) := data.envList.map envEntry

-- What both paths are meant to make of the daemon's environment.
def meantEnvironment (env : Environment Bytes Bytes) (data : LaunchData) : Environment Bytes Bytes :=
  (env.setAll data.entries).unsetAll data.envBlacklist

theorem parseEnv_named (named : 61 ∈ text) : parseEnv text = .ok (envEntry text) := by
  unfold parseEnv envEntry
  cases rest : text.dropWhile (· ≠ 61) with
  | nil => exact absurd rfl (of_decide_eq_true (dropWhile_eq_nil_iff.mp rest 61 named))
  | cons b value => rfl

theorem parseEnvs_named (named : ∀ text ∈ texts, 61 ∈ text) (envMap : List (Bytes × Bytes)) :
    parseEnvs envMap texts = .ok ((texts.map envEntry).foldl emplace envMap) := by
  induction texts generalizing envMap with
  | nil => rfl
  | cons text texts ih =>
    rw [parseEnvs,parseEnv_named (named text mem_cons_self)]
    exact ih (fun text inside => named text (mem_cons_of_mem _ inside)) _

theorem emplace_names (unique : (envMap.map Prod.fst).Nodup) : ((emplace envMap entry).map Prod.fst).Nodup := by
  unfold emplace
  split
  · exact unique
  · rename_i missing
    rw [map_append]
    exact nodup_append_comm.mp (nodup_cons.mpr ⟨missing,unique⟩)

theorem emplace_first : first (emplace envMap entry) name = (first envMap name).or (first [entry] name) := by
  unfold emplace
  split
  · rename_i present
    cases found : first envMap name with
    | some value => rfl
    | none =>
      have other : entry.1 ≠ name := by
        rintro rfl
        obtain ⟨old,inside,same⟩ := mem_map.mp present
        exact first_none.mp found old inside same
      simp [first,other]
  · exact first_append

theorem emplaces (entries : List (Bytes × Bytes)) (envMap : List (Bytes × Bytes)) (unique : (envMap.map Prod.fst).Nodup) :
    ((entries.foldl emplace envMap).map Prod.fst).Nodup ∧
      ∀ name, first (entries.foldl emplace envMap) name = (first envMap name).or (first entries name) := by
  induction entries generalizing envMap with
  | nil => exact ⟨unique,fun name => (Option.or_none).symm⟩
  | cons entry entries ih =>
    obtain ⟨names,firsts⟩ := ih (emplace envMap entry) (emplace_names unique)
    refine ⟨names,fun name => ?_⟩
    rw [foldl_cons,firsts,emplace_first,Option.or_assoc,← first_append]
    rfl

def kept (value : Bytes) : Option Bytes := if value = [] then none else some value

theorem blacklisted {env : Environment Bytes Bytes} (inside : name ∈ blacklist) : env.unsetAll blacklist name = none := by
  rw [unsetAll_apply]
  exact if_pos inside

theorem unlisted {env : Environment Bytes Bytes} (outside : name ∉ blacklist) : env.unsetAll blacklist name = env name := by
  rw [unsetAll_apply]
  exact if_neg outside

theorem childEnvironment_first {entries order : List (Bytes × Bytes)} (listed : order.Perm (entries.foldl emplace []))
    (env : Environment Bytes Bytes) (outside : name ∉ blacklist) :
    childEnvironment env order blacklist name = ((first entries name).map kept).getD (env name) := by
  obtain ⟨unique,firsts⟩ := emplaces entries [] nodup_nil
  have unique' : (order.map Prod.fst).Nodup := (listed.map _).nodup_iff.mpr unique
  have puts : order.foldl applyEntry env = env.putAll (order.map fun entry => (entry.1,kept entry.2)) := by
    rw [putAll,foldl_map]
    exact foldl_ext _ _ _ fun env entry _ => by unfold applyEntry kept; split <;> rfl
  -- The order plays no part since every name is there once.
  have same : last order name = first entries name := by
    refine Option.ext fun value => ?_
    have plain : first (entries.foldl emplace []) name = first entries name := firsts name
    rw [last_unique unique',listed.mem_iff,← first_unique unique,plain]
  rw [childEnvironment,unlisted outside,puts,putAll_last,last_map,same]

section Launcher
variable {data : LaunchData}

theorem entry_parts (named : 61 ∈ text) : text = (envEntry text).1 ++ 61 :: (envEntry text).2 ∧ 61 ∉ (envEntry text).1 := by
  obtain ⟨left,right,rfl,free⟩ := eq_append_cons_of_mem named
  unfold envEntry
  rw [takeWhile_sep free,dropWhile_sep free]
  exact ⟨rfl,free⟩

theorem splitTwo_name (named : 61 ∈ text) : (splitTwo text 61).1 = (envEntry text).1 := by
  obtain ⟨parts,free⟩ := entry_parts named
  have first := splitTwo_first free (envEntry text).2
  rwa [← parts] at first

theorem splitTwo_value (named : 61 ∈ text) : (splitTwo text 61).2 = (envEntry text).2 ↔ Whole 61 (envEntry text).2 := by
  obtain ⟨parts,free⟩ := entry_parts named
  have second := splitTwo_second free (envEntry text).2
  rwa [← parts] at second

-- The entry that decides about a name, whichever way its value is read.
def LaunchData.lastText (data : LaunchData) (name : Bytes) : Option Bytes :=
  last (data.envList.map fun text => ((envEntry text).1,text)) name

theorem entries_last : last data.entries name = (data.lastText name).map fun text => (envEntry text).2 := by
  rw [LaunchData.lastText,← last_map,map_map]
  rfl

theorem splits_last (named : ∀ text ∈ data.envList, 61 ∈ text) :
    last (data.envList.map (splitTwo · 61)) name = (data.lastText name).map fun text => (splitTwo text 61).2 := by
  rw [LaunchData.lastText,← last_map,map_map]
  congr 1
  exact map_congr_left fun text inside => Prod.ext (splitTwo_name (named text inside)) rfl

theorem lastText_mem (found : data.lastText name = some text) : text ∈ data.envList := by
  obtain ⟨other,inside,same⟩ := mem_map.mp (mem_reverse.mp (first_mem found))
  cases same
  exact inside

theorem launcherEnvironment_last (named : ∀ text ∈ data.envList, 61 ∈ text) (env : Environment Bytes Bytes)
    (outside : name ∉ data.envBlacklist) : launcherEnvironment env data name =
      ((data.lastText name).map fun text => (splitTwo text 61).2).or (env name) := by
  rw [launcherEnvironment,unlisted outside,setAll_last,splits_last named]

theorem meantEnvironment_last (env : Environment Bytes Bytes) (outside : name ∉ data.envBlacklist) :
    meantEnvironment env data name = (last data.entries name).or (env name) := by
  rw [meantEnvironment,unlisted outside,setAll_last]

end Launcher

def BothAgree (env : Environment Bytes Bytes) (data : LaunchData) : Prop :=
  (∃ envMap, parseEnvs [] data.envList = .ok envMap ∧
    ∀ order, order.Perm envMap → childEnvironment env order data.envBlacklist = meantEnvironment env data) ∧
  launcherEnvironment env data = meantEnvironment env data

-- A variable that stays is given one value throughout, not an empty one, and what
-- follows an equals sign inside the value is a single word.
def Unambiguous (data : LaunchData) : Prop :=
  ∀ name ∉ data.envBlacklist,∀ value,last data.entries name = some value →
    first data.entries name = some value ∧ value ≠ [] ∧ Whole 61 value

section Agreement
variable {data : LaunchData} {env : Environment Bytes Bytes}

theorem last_first_none {entries : List (Bytes × Bytes)} {name : Bytes} : last entries name = none ↔ first entries name = none := by
  rw [last,first_none,first_none]
  exact forall_congr' fun entry => by rw [mem_reverse]

theorem child_value {name value : Bytes} (given : last data.entries name = some value) :
    ((first data.entries name).map kept).getD (env name) = some value ↔ first data.entries name = some value ∧ value ≠ [] := by
  cases found : first data.entries name with
  | none => rw [last_first_none.mpr found] at given; cases given
  | some other =>
    simp only [Option.map_some,Option.getD_some,kept]
    by_cases empty : other = []
    · rw [if_pos empty]
      refine ⟨nofun,fun same => ?_⟩
      exact absurd (Option.some.inj same.1 ▸ empty) same.2
    · rw [if_neg empty]
      refine ⟨fun same => ⟨same,Option.some.inj same ▸ empty⟩,fun same => same.1⟩

theorem launcher_value (named : ∀ text ∈ data.envList, 61 ∈ text) (given : last data.entries name = some value) :
    ((data.lastText name).map fun text => (splitTwo text 61).2).or (env name) = some value ↔ Whole 61 value := by
  rw [entries_last] at given
  obtain ⟨text,found,rfl⟩ := Option.map_eq_some_iff.mp given
  rw [found]
  exact Option.some_inj.trans (splitTwo_value (named text (lastText_mem found)))

theorem agree_unambiguous (equals : ∀ text ∈ data.envList, 61 ∈ text) (agree : BothAgree env data) : Unambiguous data := by
  intro name outside value given
  obtain ⟨⟨envMap,read,child⟩,launcher⟩ := agree
  rw [parseEnvs_named equals []] at read
  cases read
  have meant := meantEnvironment_last env outside
  rw [given,Option.some_or] at meant
  have first := congrFun (child _ (List.Perm.refl _)) name
  rw [childEnvironment_first (List.Perm.refl _) env outside,meant] at first
  have second := congrFun launcher name
  rw [launcherEnvironment_last equals env outside,meant,launcher_value equals given] at second
  have plain := (child_value given).mp first
  exact ⟨plain.1,plain.2,second⟩

theorem child_agrees (plain : Unambiguous data) {order : List (Bytes × Bytes)} (listed : order.Perm (data.entries.foldl emplace [])) :
    childEnvironment env order data.envBlacklist = meantEnvironment env data := by
  funext name
  by_cases inside : name ∈ data.envBlacklist
  · rw [childEnvironment,meantEnvironment,blacklisted inside,blacklisted inside]
  · rw [childEnvironment_first listed env inside,meantEnvironment_last env inside]
    cases given : last data.entries name with
    | none => rw [last_first_none.mp given]; rfl
    | some value =>
      obtain ⟨once,value',_⟩ := plain name inside value given
      exact (child_value given).mpr ⟨once,value'⟩

theorem launcher_agrees (equals : ∀ text ∈ data.envList, 61 ∈ text) (plain : Unambiguous data) :
    launcherEnvironment env data = meantEnvironment env data := by
  funext name
  by_cases inside : name ∈ data.envBlacklist
  · rw [launcherEnvironment,meantEnvironment,blacklisted inside,blacklisted inside]
  · rw [launcherEnvironment_last equals env inside,meantEnvironment_last env inside]
    cases given : last data.entries name with
    | none =>
      rw [entries_last] at given
      rw [Option.map_eq_none_iff.mp given]
      rfl
    | some value => exact (launcher_value equals given).mpr (plain name inside value given).2.2

theorem environments_agree (env : Environment Bytes Bytes) (named : ∀ text ∈ data.envList, NamedEntry text) :
    BothAgree env data ↔ Unambiguous data := by
  have equals : ∀ text ∈ data.envList, 61 ∈ text := fun text inside => (named text inside).1
  refine ⟨agree_unambiguous equals,fun plain => ⟨⟨_,parseEnvs_named equals [],?_⟩,launcher_agrees equals plain⟩⟩
  exact fun order listed => child_agrees plain listed

end Agreement

theorem unambiguous_once (once : (data.entries.map Prod.fst).Nodup)
    (values : ∀ entry ∈ data.entries, entry.2 ≠ [] ∧ Whole 61 entry.2) : Unambiguous data := by
  intro name outside value given
  have listed := (last_unique once).mp given
  exact ⟨(first_unique once).mpr listed,values _ listed⟩

def launchWith (envList envBlacklist : List Bytes) : LaunchData := ⟨none,ascii "srun",[ascii "srun"],envList,envBlacklist⟩

theorem environments_agree_options : BothAgree (fun _ => some (ascii "old"))
    (launchWith [ascii "OPTS=-a k=v",ascii "MODE=k=v"] [ascii "LD_PRELOAD"]) :=
  (environments_agree _ (by decide)).mpr (unambiguous_once (by decide) (by decide +kernel))

-- The first of two values stays in the child, an empty value is no value there, and
-- the launcher's value is cut off at a blank behind its equals sign.
theorem environments_differ : ¬ BothAgree (fun _ => none) (launchWith [ascii "MODE=1",ascii "MODE=2"] []) ∧
    ¬ BothAgree (fun _ => none) (launchWith [ascii "MODE="] []) ∧ ¬ BothAgree (fun _ => none) (launchWith [ascii "MODE=k=v w"] []) := by
  refine ⟨fun agree => ?_,fun agree => ?_,fun agree => ?_⟩
  · exact absurd (agree_unambiguous (by decide) agree (ascii "MODE") (by decide) (ascii "2") (by decide)) (by decide)
  · exact absurd (agree_unambiguous (by decide) agree (ascii "MODE") (by decide) [] (by decide)) (by decide)
  · exact absurd (agree_unambiguous (by decide) agree (ascii "MODE") (by decide) (ascii "k=v w") (by decide)) (by decide)

end CommonTools.FeDaemon
