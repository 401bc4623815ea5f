import CommonTools.FeDaemon.Restoration
import CommonTools.FeDaemon.ShimPath
import CommonTools.Slurm.Layout

namespace CommonTools.Shim
open Environments Numerals FeDaemon Slurm List

structure ShimOptions where
  inputFd : Int
  outputFd : Int
  launcherPath : Bytes
  originalPath : Bytes
  launcherArgv : List Bytes
  hasShimToken : Bool
  -- The calls of dup2 for stdin, stdout and stderr.
  remaps : List (Int × Nat)

def descriptor (env : Environment Bytes Bytes) (name : Bytes) (default : Int) : Except Bytes Int :=
  match env name with
  | none => .ok default
  | some raw => ctiStoi name raw

def remap (env : Environment Bytes Bytes) (name : Bytes) (target : Nat) : Except Bytes (List (Int × Nat)) :=
  match env name with
  | none => .ok []
  | some raw => (ctiStoi name raw).map fun fd => [(fd,target)]

def parseFromEnv (env : Environment Bytes Bytes) (argv0 : Bytes) (args : List Bytes) : Except Bytes ShimOptions := do
  let inputFd ← descriptor env (ascii "CTI_MPIR_SHIM_INPUT_FD") (-1)
  let outputFd ← descriptor env (ascii "CTI_MPIR_SHIM_OUTPUT_FD") (-1)
  let launcherPath := (env (ascii "CTI_MPIR_LAUNCHER_PATH")).getD []
  let originalPath := (env (ascii "CTI_MPIR_ORIGINAL_PATH")).getD []
  let shimToken := (env (ascii "CTI_MPIR_SHIM_TOKEN")).getD []
  let stdin ← remap env (ascii "CTI_MPIR_STDIN_FD") 0
  let stdout ← remap env (ascii "CTI_MPIR_STDOUT_FD") 1
  let stderr ← remap env (ascii "CTI_MPIR_STDERR_FD") 2
  let hasShimToken := decide ((argv0 :: args).getLast (cons_ne_nil _ _) = shimToken)
  let argv := if hasShimToken then (argv0 :: args).dropLast else argv0 :: args
  return ⟨inputFd,outputFd,launcherPath,originalPath,launcherPath :: argv.tail,hasShimToken,stdin ++ stdout ++ stderr⟩

inductive Outcome where
  | exited (code : Int)
  -- Under the control of the shim, which sends its pid to the daemon.
  | started (launcherPath : Bytes) (argv : List Bytes) (env : Environment Bytes Bytes)
  | executed (launcherPath : Bytes) (argv : List Bytes) (env : Environment Bytes Bytes)

def restoredVariables : List Bytes :=
  [ascii "CTI_MPIR_SHIM_INPUT_FD",ascii "CTI_MPIR_SHIM_OUTPUT_FD",ascii "CTI_MPIR_LAUNCHER_PATH",
    ascii "CTI_MPIR_ORIGINAL_PATH"]

def shimMain (env : Environment Bytes Bytes) (argv0 : Bytes) (args : List Bytes) : Except Bytes Outcome := do
  let options ← parseFromEnv env argv0 args
  if options.launcherPath = [] ∨ options.launcherArgv = [] then return .exited 1
  if options.hasShimToken then
    return .started options.launcherPath options.launcherArgv
      (setenv (restoredVariables.foldl unsetenv env) pathName options.originalPath)
  else return .executed options.launcherPath (options.launcherPath :: args) env

section Wrapper
variable (host : Host) (shimData : ShimData) (launchData : LaunchData) (launcherPath directory : Bytes)

def givenBy (env : Environment Bytes Bytes) : Environment Bytes Bytes :=
  env.putAll ((additions host shimData launchData launcherPath directory).map fun entry => (entry.1,kept entry.2))

def unshimmed (env : Environment Bytes Bytes) : Environment Bytes Bytes :=
  (env.unsetAll ((additions host shimData launchData launcherPath directory).map Prod.fst)).put pathName host.path

def IntDescriptors : Prop :=
  ∀ fd ∈ [host.shimPipe.1,host.shimPipe.2,(host.descriptors launchData.stdio).1,(host.descriptors launchData.stdio).2.1,
    (host.descriptors launchData.stdio).2.2], - 2 ^ 31 ≤ fd ∧ fd < 2 ^ 31

instance : Decidable (IntDescriptors host launchData) := inferInstanceAs (Decidable (∀ fd ∈ _, _ ∧ _))

def tokenName : Bytes := ascii "CTI_MPIR_SHIM_TOKEN"

def streamVariables : List Bytes := [ascii "CTI_MPIR_STDIN_FD",ascii "CTI_MPIR_STDOUT_FD",ascii "CTI_MPIR_STDERR_FD"]

def Cleared (name : Bytes) : Prop :=
  name ∉ streamVariables ∧ (name = tokenName → host.shimToken = []) ∧ (name = pathName → host.path ≠ none)

end Wrapper

section Reading
variable {host : Host} {shimData : ShimData} {launchData : LaunchData} {launcherPath directory : Bytes}
  {env : Environment Bytes Bytes}

def addedNames : List Bytes := pathName :: (restoredVariables ++ (streamVariables ++ [tokenName]))

theorem additions_once : ((additions host shimData launchData launcherPath directory).map Prod.fst).Nodup := by
  change addedNames.Nodup
  decide

theorem additions_none (other : name ∉ addedNames) : first (additions host shimData launchData launcherPath directory) name = none := by
  rw [first_none]
  intro entry inside same
  have listed := mem_map.mpr ⟨entry,inside,same⟩
  exact other listed

theorem additions_some (added : name ∈ addedNames) : ∃ value, (name,value) ∈ additions host shimData launchData launcherPath directory := by
  have listed : name ∈ (additions host shimData launchData launcherPath directory).map Prod.fst := added
  obtain ⟨entry,inside,rfl⟩ := mem_map.mp listed
  exact ⟨entry.2,inside⟩

theorem given_added (listed : (name,value) ∈ additions host shimData launchData launcherPath directory) :
    givenBy host shimData launchData launcherPath directory env name = kept value := by
  rw [givenBy,Environment.putAll_last,last_map,(last_unique additions_once).mpr listed]
  rfl

theorem given_other (other : name ∉ addedNames) : givenBy host shimData launchData launcherPath directory env name = env name := by
  rw [givenBy,Environment.putAll_last,last_map,last_first_none.mpr (additions_none other)]
  rfl

theorem ctiStoi_showInt (low : - 2 ^ 31 ≤ fd) (high : fd < 2 ^ 31) : ctiStoi name (showInt fd) = .ok fd := by
  unfold ctiStoi showInt
  by_cases negative : fd < 0
  · rw [if_pos negative,stoi_negative (by omega)]
    simp only [Except.ok.injEq]
    omega
  · rw [if_neg negative,stoi_decimal (by omega)]
    simp only [Except.ok.injEq]
    omega

theorem kept_showInt (fd : Int) : kept (showInt fd) = some (showInt fd) := by
  refine if_neg ?_
  unfold showInt
  split
  · exact cons_ne_nil _ _
  · exact decimal_ne _

theorem descriptor_given {default : Int}
    (listed : (name,showInt fd) ∈ additions host shimData launchData launcherPath directory) (low : - 2 ^ 31 ≤ fd) (high : fd < 2 ^ 31) :
    descriptor (givenBy host shimData launchData launcherPath directory env) name default = .ok fd := by
  rw [descriptor,given_added listed,kept_showInt]
  exact ctiStoi_showInt low high

theorem remap_given {target : Nat}
    (listed : (name,showInt fd) ∈ additions host shimData launchData launcherPath directory) (low : - 2 ^ 31 ≤ fd) (high : fd < 2 ^ 31) :
    remap (givenBy host shimData launchData launcherPath directory env) name target = .ok [(fd,target)] := by
  rw [remap,given_added listed,kept_showInt]
  simp only [ctiStoi_showInt low high]
  rfl

theorem text_given (listed : (name,value) ∈ additions host shimData launchData launcherPath directory) :
    (givenBy host shimData launchData launcherPath directory env name).getD [] = value := by
  rw [given_added listed,kept_getD]

theorem parse_given (ints : IntDescriptors host launchData) :
    parseFromEnv (givenBy host shimData launchData launcherPath directory env) argv0 args =
      .ok ⟨host.shimPipe.1,host.shimPipe.2,shimData.shimmedLauncherPath,host.path.getD [],
        shimData.shimmedLauncherPath :: (if (argv0 :: args).getLast (cons_ne_nil _ _) = host.shimToken
          then (argv0 :: args).dropLast else argv0 :: args).tail, decide ((argv0 :: args).getLast (cons_ne_nil _ _) = host.shimToken),
        [((host.descriptors launchData.stdio).1,0),((host.descriptors launchData.stdio).2.1,1),
          ((host.descriptors launchData.stdio).2.2,2)]⟩ := by
  simp only [IntDescriptors,forall_mem_cons] at ints
  obtain ⟨⟨inLow,inHigh⟩,⟨outLow,outHigh⟩,⟨low0,high0⟩,⟨low1,high1⟩,⟨low2,high2⟩,_⟩ := ints
  unfold parseFromEnv
  rw [descriptor_given (by simp [additions]) inLow inHigh,descriptor_given (by simp [additions]) outLow outHigh,
    remap_given (by simp [additions]) low0 high0,remap_given (by simp [additions]) low1 high1,
    remap_given (by simp [additions]) low2 high2]
  have path : (givenBy host shimData launchData launcherPath directory env (ascii "CTI_MPIR_LAUNCHER_PATH")).getD [] =
      shimData.shimmedLauncherPath := text_given (by simp [additions])
  have original : (givenBy host shimData launchData launcherPath directory env (ascii "CTI_MPIR_ORIGINAL_PATH")).getD [] =
      host.path.getD [] := text_given (by simp [additions])
  have token : (givenBy host shimData launchData launcherPath directory env (ascii "CTI_MPIR_SHIM_TOKEN")).getD [] =
      host.shimToken := text_given (by simp [additions])
  rw [path,original,token]
  simp [Bind.bind,Except.bind,Pure.pure,Except.pure]

end Reading

section Running
variable {host : Host} {shimData : ShimData} {launchData : LaunchData} {launcherPath directory : Bytes}
  {env : Environment Bytes Bytes} {argv0 : Bytes} {args : List Bytes}

def cleared (host : Host) (given : Environment Bytes Bytes) : Environment Bytes Bytes :=
  setenv (restoredVariables.foldl unsetenv given) pathName (host.path.getD [])

theorem main_given (ints : IntDescriptors host launchData) (nonempty : shimData.shimmedLauncherPath ≠ []) :
    shimMain (givenBy host shimData launchData launcherPath directory env) argv0 args =
      .ok (if (argv0 :: args).getLast (cons_ne_nil _ _) = host.shimToken then
        .started shimData.shimmedLauncherPath (shimData.shimmedLauncherPath :: args.dropLast)
          (cleared host (givenBy host shimData launchData launcherPath directory env))
      else .executed shimData.shimmedLauncherPath (shimData.shimmedLauncherPath :: args)
        (givenBy host shimData launchData launcherPath directory env)) := by
  unfold shimMain
  rw [parse_given ints]
  simp only [Bind.bind,Except.bind,nonempty,cons_ne_nil,or_self,if_false]
  by_cases token : (argv0 :: args).getLast (cons_ne_nil _ _) = host.shimToken
  · have rest : (argv0 :: args).dropLast.tail = args.dropLast := by cases args <;> rfl
    simp only [token,decide_true,if_true,rest]
    rfl
  · simp only [token,decide_false,if_false]
    rfl

theorem arguments_kept (argv0 : Bytes) (args : List Bytes) (token : Bytes) :
    ((if (argv0 :: args).getLast (cons_ne_nil _ _) = token then args.dropLast else args) = args.filter (· ≠ token)) ↔
      token ∉ args.dropLast := by
  cases args using reverseRecOn with
  | nil => simp
  | append_singleton init last =>
    have ends : (argv0 :: (init ++ [last])).getLast (cons_ne_nil _ _) = last := by simp
    rw [ends]
    have kept' : init = init.filter (· ≠ token) ↔ token ∉ init := by
      rw [eq_comm,filter_eq_self]
      simp only [decide_eq_true_iff]
      exact ⟨fun apart inside => apart token inside rfl,fun absent entry inside same => absent (same ▸ inside)⟩
    by_cases here : last = token
    · simp only [here,if_true]
      simpa using kept'
    · simpa [here] using kept'

theorem cleared_path : cleared host given pathName = some (host.path.getD []) := by
  have settable : Settable pathName := by decide
  rw [cleared,setenv_apply,if_pos ⟨rfl,settable⟩]

theorem cleared_unset (other : name ≠ pathName) : cleared host given name = given.unsetAll restoredVariables name := by
  have all : ∀ variable' ∈ restoredVariables, Settable variable' := by decide
  have unsets : restoredVariables.foldl unsetenv given = given.unsetAll restoredVariables :=
    foldl_ext _ _ _ fun env variable' inside => if_pos (all variable' inside)
  rw [cleared,setenv_apply,if_neg fun both => other both.1,unsets]

theorem unshimmed_path : unshimmed host shimData launchData launcherPath directory env pathName = host.path := by
  rw [unshimmed,Environment.put,if_pos rfl]

theorem unshimmed_unset (other : name ≠ pathName) :
    unshimmed host shimData launchData launcherPath directory env name = env.unsetAll addedNames name := if_neg other

theorem streams_given (stream : name ∈ streamVariables) :
    ∃ fd, givenBy host shimData launchData launcherPath directory env name = some (showInt fd) := by
  simp only [streamVariables,mem_cons,not_mem_nil,or_false] at stream
  rcases stream with rfl | rfl | rfl
  · exact ⟨_,(given_added (by simp [additions])).trans (kept_showInt (host.descriptors launchData.stdio).1)⟩
  · exact ⟨_,(given_added (by simp [additions])).trans (kept_showInt (host.descriptors launchData.stdio).2.1)⟩
  · exact ⟨_,(given_added (by simp [additions])).trans (kept_showInt (host.descriptors launchData.stdio).2.2)⟩

theorem names_apart : pathName ∉ streamVariables ∧ pathName ≠ tokenName ∧
    ∀ name ∈ restoredVariables, name ∉ streamVariables ∧ name ≠ tokenName := by
  decide

theorem cleared_exact (name : Bytes) : cleared host (givenBy host shimData launchData launcherPath directory env) name =
      unshimmed host shimData launchData launcherPath directory env name ↔ Cleared host name := by
  obtain ⟨pathStream,pathToken,apart⟩ := names_apart
  by_cases path : name = pathName
  · subst path
    rw [cleared_path,unshimmed_path]
    cases found : host.path <;> simp [Cleared,pathStream,pathToken,found]
  rw [cleared_unset path,unshimmed_unset path]
  by_cases restored : name ∈ restoredVariables
  · obtain ⟨stream,token⟩ := apart name restored
    rw [blacklisted restored,blacklisted (show name ∈ addedNames by simp [addedNames,restored])]
    simp [Cleared,stream,token,path]
  rw [unlisted restored]
  by_cases stream : name ∈ streamVariables
  · obtain ⟨fd,given⟩ : ∃ fd, givenBy host shimData launchData launcherPath directory env name = some (showInt fd) := streams_given stream
    rw [given,blacklisted (show name ∈ addedNames by simp [addedNames,stream])]
    simp [Cleared,stream]
  by_cases token : name = tokenName
  · subst token
    rw [given_added (show (tokenName,host.shimToken) ∈ additions host shimData launchData launcherPath directory by
      simp [additions,tokenName]),blacklisted (show tokenName ∈ addedNames by simp [addedNames])]
    by_cases empty : host.shimToken = [] <;> simp [Cleared,kept,empty,stream,path]
  have other : name ∉ addedNames := by simp [addedNames,path,restored,stream,token]
  rw [given_other other,unlisted other]
  simp [Cleared,stream,token,path]

end Running

section Started
variable {host : Host} {shimData : ShimData} {launchData : LaunchData} {launcherPath : Bytes} {env : Environment Bytes Bytes}

end Started

def shimHost (path : Option Bytes) : Host :=
  {bareHost with shimToken := ascii "0a", shimPipe := (3,4), descriptors := fun _ => (0,1,2), path := path}

end CommonTools.Shim
