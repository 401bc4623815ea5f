import CommonTools.FeDaemon.LaunchEnvironment

namespace CommonTools.FeDaemon
open Environments Environment
open List hiding beq_eq_decide

section Guards

-- setenv and unsetenv refuse any other name.
def Settable (name : Bytes) : Prop := name ≠ [] ∧ 61 ∉ name

instance (name : Bytes) : Decidable (Settable name) := inferInstanceAs (Decidable (_ ∧ _))

def setenv (env : Environment Bytes Bytes) (name value : Bytes) : Environment Bytes Bytes :=
  if Settable name then env.set name value else env

def unsetenv (env : Environment Bytes Bytes) (name : Bytes) : Environment Bytes Bytes :=
  if Settable name then env.unset name else env

-- env_var_restore: a variable with the value it had, or with none where it is to be cleared.
abbrev EnvVarRestore := Bytes × Option Bytes

-- The destructor. That of an element the vector has moved away has no name left and does nothing.
def EnvVarRestore.restore (env : Environment Bytes Bytes) (guard : EnvVarRestore) : Environment Bytes Bytes :=
  match guard.2 with
  | none => unsetenv env guard.1
  | some value => setenv env guard.1 value

structure Overwriting where
  env : Environment Bytes Bytes
  overwrittenEnv : List EnvVarRestore

def Overwriting.setVariable (state : Overwriting) (entry : Bytes × Bytes) : Overwriting :=
  ⟨setenv state.env entry.1 entry.2,state.overwrittenEnv ++ [(entry.1,state.env entry.1)]⟩

def Overwriting.unsetVariable (state : Overwriting) (var : Bytes) : Overwriting :=
  ⟨unsetenv state.env var,
    match state.env var with
    | some oldVal => state.overwrittenEnv ++ [(var,some oldVal)]
    | none => state.overwrittenEnv⟩

def overwrite (env : Environment Bytes Bytes) (data : LaunchData) : Overwriting :=
  data.envBlacklist.foldl Overwriting.unsetVariable
    ((data.envList.map (splitTwo · 61)).foldl Overwriting.setVariable ⟨env,[]⟩)

variable {ε α : Type}

-- launchMPIR and the daemon's environment. `start` is all it does between the guards and their
-- end: it reads the environment, and it returns or throws.
def launchMPIRGuarded (start : LaunchData → Environment Bytes Bytes → Except ε α) (env : Environment Bytes Bytes)
    (data : LaunchData) : Except ε α × Environment Bytes Bytes :=
  let state := overwrite env data
  (start data state.env,state.overwrittenEnv.foldl EnvVarRestore.restore state.env)

def launchesGuarded (start : LaunchData → Environment Bytes Bytes → Except ε α) (env : Environment Bytes Bytes) :
    List LaunchData → List (Except ε α) × Environment Bytes Bytes
  | [] => ([],env)
  | data :: later =>
    let one := launchMPIRGuarded start env data
    let rest := launchesGuarded start one.2 later
    (one.1 :: rest.1,rest.2)

end Guards

def LaunchData.valuesOf (data : LaunchData) (name : Bytes) : List Bytes :=
  ((data.envList.map (splitTwo · 61)).filter (·.1 = name)).map Prod.snd

def LaunchData.lastGuarded (data : LaunchData) (name : Bytes) : Option Bytes :=
  if data.envBlacklist.contains name then (data.valuesOf name).getLast? else (data.valuesOf name).dropLast.getLast?

-- Where the launch itself gave a variable the value that its last guard found, the daemon had
-- that value as well.
def Undone (env : Environment Bytes Bytes) (data : LaunchData) : Prop :=
  ∀ name, Settable name → ∀ value ∈ data.lastGuarded name, env name = some value

section Steps
variable {env : Environment Bytes Bytes} {name asked : Bytes}

theorem setenv_apply : setenv env name value asked = if asked = name ∧ Settable name then some value else env asked := by
  by_cases settable : Settable name <;> simp [setenv,settable,Environment.set,Environment.put]

theorem unsetenv_apply : unsetenv env name asked = if asked = name ∧ Settable name then none else env asked := by
  by_cases settable : Settable name <;> simp [unsetenv,settable,unset,put]

theorem restore_apply {guard : EnvVarRestore} :
    guard.restore env asked = if asked = guard.1 ∧ Settable guard.1 then guard.2 else env asked := by
  obtain ⟨own,value⟩ := guard
  cases value with
  | none => exact unsetenv_apply
  | some value => exact setenv_apply

theorem last_guard {guards : List EnvVarRestore} {guard : EnvVarRestore} :
    last (guards ++ [guard]) asked = if guard.1 = asked then some guard.2 else last guards asked := by
  by_cases named : guard.1 = asked <;> simp [first,last,named]

theorem unsetVariable_other {state : Overwriting} (other : asked ≠ name) : (state.unsetVariable name).env asked = state.env asked ∧
      last (state.unsetVariable name).overwrittenEnv asked = last state.overwrittenEnv asked := by
  refine ⟨by simp [Overwriting.unsetVariable,unsetenv_apply,other],?_⟩
  cases old : state.env name <;> simp [Overwriting.unsetVariable,old,last_guard,other.symm]

end Steps

section Refused
variable {asked : Bytes}

theorem refused_other (refused : ¬ Settable asked) : ¬ (asked = name ∧ Settable name) := by
  intro both
  exact refused (both.1 ▸ both.2)

theorem restored_refused (refused : ¬ Settable asked) {guards : List EnvVarRestore} :
    guards.foldl EnvVarRestore.restore env asked = env asked := by
  refine foldlRecOn guards EnvVarRestore.restore (motive := fun env' => env' asked = env asked) rfl ?_
  intro env' same guard _
  rw [restore_apply,if_neg (refused_other refused),same]

theorem overwrite_refused (refused : ¬ Settable asked) : (overwrite env data).env asked = env asked := by
  refine foldlRecOn _ Overwriting.unsetVariable (motive := fun state => state.env asked = env asked) ?_ ?_
  · refine foldlRecOn _ Overwriting.setVariable (motive := fun state => state.env asked = env asked) ?_ ?_
    · rfl
    · intro state same entry _
      exact setenv_apply.trans ((if_neg (refused_other refused)).trans same)
  · intro state same var _
    exact unsetenv_apply.trans ((if_neg (refused_other refused)).trans same)

end Refused

section Following
variable {asked : Bytes}

theorem restored_last (settable : Settable asked) :
    guards.foldl EnvVarRestore.restore env asked = (last guards asked).getD (env asked) := by
  induction guards using reverseRecOn with
  | nil => rfl
  | append_singleton guards guard ih =>
    rw [foldl_append,foldl_cons,foldl_nil,restore_apply,last_guard,ih]
    by_cases named : guard.1 = asked
    · subst named
      simp [settable]
    · simp [named,Ne.symm named]

theorem setVariables_last (settable : Settable asked) (env : Environment Bytes Bytes) (entries : List (Bytes × Bytes)) :
    let values := (entries.filter (·.1 = asked)).map Prod.snd
    let state := entries.foldl Overwriting.setVariable ⟨env,[]⟩
    state.env asked = values.getLast?.or (env asked) ∧
      last state.overwrittenEnv asked = if values = [] then none else some (values.dropLast.getLast?.or (env asked)) := by
  induction entries using reverseRecOn with
  | nil => exact ⟨rfl,rfl⟩
  | append_singleton entries entry ih =>
    obtain ⟨own,value⟩ := entry
    obtain ⟨now,guard⟩ := ih
    simp only [foldl_append,foldl_cons,foldl_nil,Overwriting.setVariable,last_guard,filter_append,
      map_append,setenv_apply]
    by_cases named : own = asked
    · subst named
      simp [settable,now]
    · have none' : (([(own,value)] : List (Bytes × Bytes)).filter (·.1 = asked)).map Prod.snd = [] := by simp [named]
      simp only [none',append_nil,named,Ne.symm named,false_and,if_false]
      exact ⟨now,guard⟩

theorem unsetVariables_last (settable : Settable asked) (names : List Bytes) (state : Overwriting) :
    let after := names.foldl Overwriting.unsetVariable state
    (last after.overwrittenEnv asked).getD (after.env asked) =
      if asked ∈ names ∧ (state.env asked).isSome = true then state.env asked
      else (last state.overwrittenEnv asked).getD (state.env asked) := by
  induction names generalizing state with
  | nil => simp
  | cons own names ih =>
    simp only [foldl_cons,mem_cons]
    rw [ih]
    by_cases named : asked = own
    · subst named
      cases old : state.env asked <;> simp [Overwriting.unsetVariable,old,unsetenv_apply,settable,last_guard]
    · obtain ⟨now,guard⟩ := unsetVariable_other named
      rw [now,guard]
      simp [named]

end Following

section Restoring
variable {ε α : Type} (start : LaunchData → Environment Bytes Bytes → Except ε α) {env : Environment Bytes Bytes}
  {data : LaunchData}

theorem guarded_value (settable : Settable name) : (launchMPIRGuarded start env data).2 name = (data.lastGuarded name).or (env name) := by
  obtain ⟨now,guard⟩ := setVariables_last settable env (data.envList.map (splitTwo · 61))
  have after := unsetVariables_last settable data.envBlacklist
    ((data.envList.map (splitTwo · 61)).foldl Overwriting.setVariable ⟨env,[]⟩)
  rw [guard,now] at after
  refine (restored_last settable).trans (after.trans ?_)
  unfold LaunchData.lastGuarded LaunchData.valuesOf
  generalize ((data.envList.map (splitTwo · 61)).filter (·.1 = name)).map Prod.snd = values
  by_cases listed : name ∈ data.envBlacklist
  · cases values using reverseRecOn with
    | nil => cases env name <;> simp [listed]
    | append_singleton values value => simp [listed]
  · cases values using reverseRecOn <;> simp [listed]

theorem guarded_restored : (launchMPIRGuarded start env data).2 = env ↔ Undone env data := by
  constructor
  · intro restored name settable value found
    have now : (launchMPIRGuarded start env data).2 name = _ := guarded_value start settable
    rwa [restored,Option.mem_def.mp found] at now
  · intro undone
    funext name
    by_cases settable : Settable name
    · rw [guarded_value start settable]
      cases found : data.lastGuarded name with
      | none => rfl
      | some value => exact (undone name settable value found).symm
    · exact (restored_refused settable).trans (overwrite_refused settable)

theorem launches_alone (launches : List LaunchData) (undone : ∀ data ∈ launches, Undone env data) :
    launchesGuarded start env launches = (launches.map fun data => (launchMPIRGuarded start env data).1,env) := by
  induction launches with
  | nil => rfl
  | cons data later ih =>
    have restored := (guarded_restored start).mpr (undone data mem_cons_self)
    have rest := ih fun data inside => undone data (mem_cons_of_mem _ inside)
    simp [launchesGuarded,restored,rest]

theorem setVariables_env {entries : List (Bytes × Bytes)} (valid : ∀ entry ∈ entries, Settable entry.1) {state : Overwriting} :
    (entries.foldl Overwriting.setVariable state).env = state.env.setAll entries := by
  induction entries generalizing state with
  | nil => rfl
  | cons entry entries ih =>
    rw [foldl_cons,ih fun entry inside => valid entry (mem_cons_of_mem _ inside)]
    simp [Overwriting.setVariable,setenv,valid entry mem_cons_self,setAll]

theorem unsetVariables_env {names : List Bytes} (valid : ∀ name ∈ names, Settable name) {state : Overwriting} :
    (names.foldl Overwriting.unsetVariable state).env = state.env.unsetAll names := by
  induction names generalizing state with
  | nil => rfl
  | cons name names ih =>
    rw [foldl_cons,ih fun name inside => valid name (mem_cons_of_mem _ inside)]
    simp [Overwriting.unsetVariable,unsetenv,valid name mem_cons_self,unsetAll]

end Restoring

theorem undone_once (once : ((data.envList.map (splitTwo · 61)).map Prod.fst).Nodup)
    (apart : ∀ entry ∈ data.envList.map (splitTwo · 61), entry.1 ∉ data.envBlacklist) : Undone env data := by
  intro name _ value found
  have single : (data.valuesOf name).length ≤ 1 := by
    have count := nodup_iff_count_le_one.mp once name
    rw [List.count,countP_map,countP_eq_length_filter] at count
    simpa [LaunchData.valuesOf,Function.comp_def,beq_eq_decide] using count
  by_cases listed : name ∈ data.envBlacklist
  · rw [LaunchData.lastGuarded,if_pos (contains_iff_mem.mpr listed)] at found
    obtain ⟨entry,inside,rfl⟩ := mem_map.mp (mem_of_getLast? found)
    obtain ⟨present,named⟩ := mem_filter.mp inside
    exact absurd ((of_decide_eq_true named).symm ▸ listed) (apart entry present)
  · rw [LaunchData.lastGuarded,if_neg (contains_iff_mem.not.mpr listed)] at found
    have empty : (data.valuesOf name).dropLast = [] := length_eq_zero_iff.mp (by rw [length_dropLast]; omega)
    rw [empty] at found
    cases found

-- A launch leaves the environment as it was exactly if it undoes its values, and launches that do
-- are each started as if they were alone.
theorem environment_restored {ε α : Type} (start : LaunchData → Environment Bytes Bytes → Except ε α) (env : Environment Bytes Bytes) :
    (∀ data, (launchMPIRGuarded start env data).2 = env ↔ Undone env data) ∧ ∀ launches, (∀ data ∈ launches, Undone env data) →
        launchesGuarded start env launches = (launches.map fun data => (launchMPIRGuarded start env data).1,env) :=
  ⟨fun _ => guarded_restored start,launches_alone start⟩

theorem environment_restored_twice : launchesGuarded (fun _ env => Except.ok (ε := Unit) (env (ascii "MODE"))) (fun _ => none)
      [launchWith [ascii "MODE=1",ascii "ARCH=x86"] [ascii "LD_PRELOAD"],launchWith [] []] =
        ([.ok (some (ascii "1")),.ok none],fun _ => none) := by
  refine ((environment_restored _ _).2 _ fun data inside => ?_).trans (Prod.ext (by decide) rfl)
  rcases mem_pair.mp inside with rfl | rfl
  · exact undone_once (by decide) (by decide)
  · exact undone_once (by decide) (by decide)

-- A variable given two values keeps the first, and one that is set and blacklisted stays set.
-- The launch after it finds the value, though it asks for none.
theorem environment_not_restored : (launchMPIRGuarded (fun _ env => Except.ok (ε := Unit) (env (ascii "MODE"))) (fun _ => none)
      (launchWith [ascii "MODE=1",ascii "MODE=2"] [])).2 (ascii "MODE") = some (ascii "1") ∧
    (launchMPIRGuarded (fun _ _ => Except.error (α := Unit) ()) (fun _ => none)
      (launchWith [ascii "MODE=1"] [ascii "MODE"])).2 (ascii "MODE") = some (ascii "1") ∧
    (launchesGuarded (fun _ env => Except.ok (ε := Unit) (env (ascii "MODE"))) (fun _ => none)
      [launchWith [ascii "MODE=1",ascii "MODE=2"] [],launchWith [] []]).1.map Except.toOption =
        [some (some (ascii "2")),some (some (ascii "1"))] := by
  refine ⟨?_,?_,?_⟩ <;> decide

end CommonTools.FeDaemon
