import CommonTools.FeDaemon.Restoration
import CommonTools.Interface.LdPreload
import CommonTools.Slurm.Texts

namespace CommonTools.Pals
open Texts Environments FeDaemon Slurm List Environment
open Interface (ldPreload ldPreload_name)

def envOption : Bytes := ascii "--env"

def saveLdPreload : Bytes := ascii "CTI_SAVE_LD_PRELOAD"

def wrapped (preloadPalsPath value : Bytes) : List Bytes :=
  [ascii "--env=LD_PRELOAD=" ++ preloadPalsPath ++ ascii ":" ++ value,ascii "--env=CTI_SAVE_LD_PRELOAD=" ++ value]

def isJoined (arg : Bytes) : Bool := (ascii "--env=LD_PRELOAD=").isPrefixOf arg

-- strncmp compares four bytes of "--env".
def isApart (arg next : Bytes) : Bool := (envOption.take 4).isPrefixOf arg && (ascii "LD_PRELOAD=").isPrefixOf next

-- The loop over the arguments: those that are added, and whether LD_PRELOAD was found.
def fixArguments (preloadPalsPath : Bytes) : List Bytes → List Bytes × Bool
  | [] => ([],false)
  | [arg] => if isJoined arg then (wrapped preloadPalsPath ((splitString 3 arg 61).getD 2 []),true) else ([arg],false)
  | arg :: next :: rest =>
    if isJoined arg then
      (wrapped preloadPalsPath ((splitString 3 arg 61).getD 2 []) ++ (fixArguments preloadPalsPath (next :: rest)).1,true)
    else if isApart arg next then
      (wrapped preloadPalsPath ((splitString 2 next 61).getD 1 []) ++ (fixArguments preloadPalsPath rest).1,true)
    else (arg :: (fixArguments preloadPalsPath (next :: rest)).1,(fixArguments preloadPalsPath (next :: rest)).2)

def fixLaunchArguments (preloadPalsPath : Bytes) (launcherArgv : Option (List Bytes)) : List Bytes :=
  match launcherArgv with
  | none => []
  | some args =>
    if preloadPalsPath ≠ [] then
      let (fixedArgs,foundLdPreload) := fixArguments preloadPalsPath args
      if foundLdPreload then fixedArgs else (ascii "--env=LD_PRELOAD=" ++ preloadPalsPath) :: fixedArgs
    else args

def fixLaunchEnvironment (launcherName : Bytes) (envList : Option (List Bytes)) : List Bytes :=
  let aprun := launcherName == ascii "aprun"
  envList.getD [] ++ [if aprun then ascii "APRUN_RPC_TIMEOUT=300" else ascii "PALS_RPC_TIMEOUT=300",
    if aprun then ascii "APRUN_LOCAL_LAUNCH=0" else ascii "PALS_LOCAL_LAUNCH=0"]

-- pals_init_constructor, up to where it loads libpals.
def palsInitConstructor (env : Environment Bytes Bytes) : Environment Bytes Bytes :=
  let env := unsetenv env ldPreload
  match env saveLdPreload with
  | some value => unsetenv (setenv env ldPreload value) saveLdPreload
  | none => env

-- What the launcher reads: settings, in one word or with the option as a word of its own, and
-- everything else.
inductive Argument where
  | setting (apart : Bool) (text : Bytes)
  | plain (arg : Bytes)
  deriving DecidableEq

def Argument.words : Argument → List Bytes
  | .setting true text => [envOption,text]
  | .setting false text => [envOption ++ 61 :: text]
  | .plain arg => [arg]

def singleWord (arg : Bytes) : Argument :=
  if (envOption ++ [61]).isPrefixOf arg then .setting false (arg.drop 6) else .plain arg

def parse : List Bytes → List Argument
  | [] => []
  | [arg] => [singleWord arg]
  | arg :: next :: rest => if arg = envOption then .setting true next :: parse rest else singleWord arg :: parse (next :: rest)

def Argument.Formed : Argument → Prop
  | .setting true text => text.head? ≠ some 45
  | .setting false _ => True
  | .plain arg => arg ≠ envOption ∧ (envOption ++ [61]).isPrefixOf arg = false

structure LauncherArgs where
  arguments : List Argument
  formed : ∀ argument ∈ arguments, argument.Formed

def LauncherArgs.words (args : LauncherArgs) : List Bytes := args.arguments.flatMap Argument.words

def entryOf (text : Bytes) : Option (Bytes × Bytes) :=
  if text.contains 61 then some (text.takeWhile (· ≠ 61),(text.dropWhile (· ≠ 61)).tail) else none

def Argument.entry : Argument → Option (Bytes × Bytes)
  | .setting _ text => entryOf text
  | .plain _ => none

def jobEnvironment (envList : List Bytes) (arguments : List Argument) : Environment Bytes Bytes :=
  setAll (fun _ => none) (envList.filterMap entryOf ++ arguments.filterMap Argument.entry)

def Argument.sets (argument : Argument) (name : Bytes) : Bool := argument.entry.any (·.1 == name)

def foreign (argument : Argument) : Bool := !argument.sets ldPreload && !argument.sets saveLdPreload

-- Nothing but settings of the two variables is added, and only settings of LD_PRELOAD are left out.
structure Transparent (preloadPalsPath launcherName : Bytes) (envList : Option (List Bytes)) (args : LauncherArgs) : Prop where
  kept : (args.arguments.filter (!·.sets ldPreload)).Sublist
    ((parse (fixLaunchArguments preloadPalsPath (some args.words))).filter (!·.sets ldPreload))
  others : (parse (fixLaunchArguments preloadPalsPath (some args.words))).filter foreign = args.arguments.filter foreign
  restored : palsInitConstructor (jobEnvironment (fixLaunchEnvironment launcherName envList)
      (parse (fixLaunchArguments preloadPalsPath (some args.words)))) ldPreload =
    jobEnvironment (fixLaunchEnvironment launcherName envList) args.arguments ldPreload

def Argument.opens : Argument → Bool
  | .setting apart _ => !apart
  | .plain arg => (envOption.take 4).isPrefixOf arg

def Argument.swallows (argument next : Argument) : Bool :=
  argument.opens && !argument.sets ldPreload &&
    match next with
    | .plain arg => (ascii "LD_PRELOAD=").isPrefixOf arg
    | .setting _ _ => false

def Apart (argument next : Argument) : Prop := argument.swallows next = false

instance (argument next : Argument) : Decidable (Apart argument next) := inferInstanceAs (Decidable (_ = _))

def lastPreload (entries : List (Bytes × Bytes)) : Option (Bytes × Bytes) :=
  entries.reverse.find? fun entry => entry.1 == ldPreload || entry.1 == saveLdPreload

-- Without a setting of LD_PRELOAD, what is saved has to be what the environment list sets. With
-- one, the last has to come through split::string whole, or to be saved once more by a later setting.
def Saved (envEntries settings : List (Bytes × Bytes)) : Prop :=
  match last settings ldPreload with
  | none => last (envEntries ++ settings) saveLdPreload = last envEntries ldPreload
  | some value =>
    match lastPreload settings with
    | some (name,saved) => if name = ldPreload then Whole 61 value else saved = value
    | none => True

structure Harmless (envList : Option (List Bytes)) (args : LauncherArgs) : Prop where
  apart : args.arguments.IsChain Apart
  saved : Saved ((envList.getD []).filterMap entryOf) (args.arguments.filterMap Argument.entry)

section Words
variable {name text : Bytes}

theorem saveLdPreload_free : 61 ∉ saveLdPreload := by decide

theorem saveLdPreload_other : saveLdPreload ≠ ldPreload := by decide

theorem preload_text : ascii "LD_PRELOAD=" = ldPreload ++ [61] := by decide

theorem joined_text : ascii "--env=LD_PRELOAD=" = envOption ++ 61 :: (ldPreload ++ [61]) := by decide

theorem entryOf_pair (free : 61 ∉ name) : entryOf (name ++ 61 :: value) = some (name,value) := by
  have inside : (name ++ 61 :: value).contains 61 = true := by simp
  rw [entryOf,if_pos inside,takeWhile_sep free,dropWhile_sep free,tail_cons]

theorem entryOf_name (entry : entryOf text = some (name,value)) : text = name ++ 61 :: value := by
  unfold entryOf at entry
  split at entry
  · rename_i inside
    obtain ⟨left,right,rfl,free⟩ := eq_append_cons_of_mem (contains_iff_mem.mp inside)
    rw [takeWhile_sep free,dropWhile_sep free] at entry
    simp only [tail_cons,Option.some.injEq,Prod.mk.injEq] at entry
    rw [entry.1,entry.2]
  · cases entry

theorem sets_entry {argument : Argument} : argument.sets name = true ↔ ∃ value, argument.entry = some (name,value) := by
  simp [Argument.sets,Option.any_eq_true]

theorem setting_sets (free : 61 ∉ name) : (Argument.setting apart text).sets name = true ↔ ∃ value, text = name ++ 61 :: value := by
  rw [sets_entry]
  constructor
  · intro ⟨value,entry⟩
    exact ⟨value,entryOf_name entry⟩
  · intro ⟨value,same⟩
    exact ⟨value,by rw [Argument.entry,same,entryOf_pair free]⟩

theorem begins_equals : (name ++ [61]).isPrefixOf text = true ↔ ∃ value, text = name ++ 61 :: value := by
  rw [List.isPrefixOf_iff_prefix]
  constructor
  · intro ⟨value,same⟩
    exact ⟨value,by simp [← same]⟩
  · intro ⟨value,same⟩
    exact ⟨value,by simp [same]⟩

theorem preload_sets : (ascii "LD_PRELOAD=").isPrefixOf text = (Argument.setting apart text).sets ldPreload := by
  rw [Bool.eq_iff_iff,preload_text,begins_equals,setting_sets ldPreload_name]

theorem begins_false (part : short <+: long) (other : short.isPrefixOf text = false) : long.isPrefixOf text = false := by
  rw [Bool.eq_false_iff,ne_eq,List.isPrefixOf_iff_prefix] at other ⊢
  exact fun begins => other (part.trans begins)

theorem isJoined_setting : isJoined (envOption ++ 61 :: text) = (Argument.setting false text).sets ldPreload := by
  rw [← preload_sets,Bool.eq_iff_iff,isJoined,joined_text,preload_text]
  simp only [List.isPrefixOf_iff_prefix,prefix_append_right_inj,cons_prefix_cons,true_and]

def cut (value : Bytes) : Bytes := (splitString 1 value 61).headD []

theorem cut_whole : cut value = value ↔ Whole 61 value := by
  obtain ⟨field,single,whole⟩ := @splitString_single 61 value
  simpa [cut,single] using whole

theorem cut_apart : (splitString 2 (ldPreload ++ 61 :: value) 61).getD 1 [] = cut value := by
  obtain ⟨field,single,_⟩ := @splitString_single 61 value
  simp [splitString_sep ldPreload_name,cut,single]

theorem cut_joined : (splitString 3 (envOption ++ 61 :: (ldPreload ++ 61 :: value)) 61).getD 2 [] = cut value := by
  have free : 61 ∉ envOption := by decide
  obtain ⟨field,single,_⟩ := @splitString_single 61 value
  simp [splitString_sep free,splitString_sep ldPreload_name,cut,single]

end Words

theorem parse_word (alone : arg ≠ envOption) : parse (arg :: rest) = singleWord arg :: parse rest := by
  cases rest with
  | nil => rfl
  | cons next rest => rw [parse,if_neg alone]

theorem singleWord_setting : singleWord (envOption ++ 61 :: text) = .setting false text := by
  have begins : (envOption ++ [61]).isPrefixOf (envOption ++ 61 :: text) = true := begins_equals.mpr ⟨text,rfl⟩
  rfl

theorem parse_argument (formed : argument.Formed) : parse (argument.words ++ rest) = argument :: parse rest := by
  match argument,formed with
  | .setting true text,_ => simp [Argument.words,parse]
  | .setting false text,_ =>
    have alone : envOption ++ 61 :: text ≠ envOption := fun same => by simpa using congrArg List.length same
    simp [Argument.words,parse_word alone,singleWord_setting]
  | .plain arg,⟨alone,unjoined⟩ => simp [Argument.words,parse_word alone,singleWord,unjoined]

theorem parse_words (formed : ∀ argument ∈ arguments, argument.Formed) : parse (arguments.flatMap Argument.words) = arguments := by
  induction arguments with
  | nil => rfl
  | cons argument rest ih =>
    obtain ⟨here,later⟩ := forall_mem_cons.mp formed
    rw [flatMap_cons,parse_argument here,ih later]

section Fixing
variable {path : Bytes} {argument : Argument}

theorem fix_joined : fixArguments path ((envOption ++ 61 :: (ldPreload ++ 61 :: value)) :: rest) =
      (wrapped path (cut value) ++ (fixArguments path rest).1,true) := by
  have joined : isJoined (envOption ++ 61 :: (ldPreload ++ 61 :: value)) = true := by
    rw [isJoined_setting,setting_sets ldPreload_name]
    exact ⟨value,rfl⟩
  cases rest <;> simp only [fixArguments,joined,if_true,cut_joined,append_nil]

theorem fix_apart (unjoined : isJoined arg = false) (opens : (envOption.take 4).isPrefixOf arg = true) :
    fixArguments path (arg :: (ldPreload ++ 61 :: value) :: rest) = (wrapped path (cut value) ++ (fixArguments path rest).1,true) := by
  have apart : isApart arg (ldPreload ++ 61 :: value) = true := by
    rw [isApart,opens,Bool.true_and,preload_text,begins_equals]
    exact ⟨value,rfl⟩
  simp only [fixArguments,unjoined,apart,if_true,Bool.false_eq_true,if_false,cut_apart]

theorem fix_copy (unjoined : isJoined arg = false) (unapart : ∀ next ∈ rest.head?, isApart arg next = false) :
    fixArguments path (arg :: rest) = (arg :: (fixArguments path rest).1,(fixArguments path rest).2) := by
  cases rest with
  | nil => simp [fixArguments,unjoined]
  | cons next rest => simp [fixArguments,unjoined,unapart next (by simp)]

theorem undashed (other : text.head? ≠ some 45) : (envOption.take 4).isPrefixOf text = false := by
  have dash : (envOption.take 4).head? = some 45 := by decide
  rw [Bool.eq_false_iff,ne_eq,List.isPrefixOf_iff_prefix]
  intro ⟨rest,same⟩
  rw [← same] at other
  exact other rfl

theorem head_preload (head : (arguments.flatMap Argument.words).head? = some word)
    (preload : (ascii "LD_PRELOAD=").isPrefixOf word = true) : ∃ rest, arguments = .plain word :: rest := by
  have starts : word.head? = some 76 := by
    rw [preload_text,begins_equals] at preload
    obtain ⟨value,rfl⟩ := preload
    rfl
  match arguments with
  | [] => cases head
  | .plain arg :: rest => exact ⟨rest,by rw [show arg = word by simpa [Argument.words] using head]⟩
  | .setting true text :: rest | .setting false text :: rest =>
    cases Option.some.inj head
    cases starts

theorem opening_word (formed : argument.Formed) (opens : argument.opens = true) (other : argument.sets ldPreload = false) :
    ∃ arg, argument.words = [arg] ∧ (envOption.take 4).isPrefixOf arg = true ∧ isJoined arg = false := by
  match argument with
  | .setting true text => cases opens
  | .setting false text =>
    exact ⟨_,rfl,List.isPrefixOf_iff_prefix.mpr ((List.take_prefix 4 envOption).trans (prefix_append _ _)),
      by rw [isJoined_setting,other]⟩
  | .plain arg => exact ⟨arg,rfl,opens,begins_false (by decide) formed.2⟩

theorem fix_option (other : (Argument.setting true text).sets ldPreload = false) (undash : text.head? ≠ some 45) :
    fixArguments path (envOption :: text :: rest) = (envOption :: text :: (fixArguments path rest).1,(fixArguments path rest).2) := by
  have unapart : isApart envOption text = false := by rw [isApart,preload_sets,other,Bool.and_false]
  have texts : fixArguments path (text :: rest) = (text :: (fixArguments path rest).1,(fixArguments path rest).2) :=
    fix_copy (begins_false (by decide) (undashed undash)) fun next _ => by rw [isApart,undashed undash,Bool.false_and]
  rw [fix_copy (by decide) (by simpa using unapart),texts]

theorem fix_other (formed : argument.Formed) (other : argument.sets ldPreload = false) {rest : List Argument}
    (apart : ∀ next ∈ rest.head?, argument.swallows next = false) : fixArguments path (argument.words ++ rest.flatMap Argument.words) =
      (argument.words ++ (fixArguments path (rest.flatMap Argument.words)).1,(fixArguments path (rest.flatMap Argument.words)).2) := by
  cases opens : argument.opens with
  | true =>
    obtain ⟨arg,word,_,unjoined⟩ := opening_word formed opens other
    rw [word]
    refine fix_copy unjoined fun next head => Bool.eq_false_iff.mpr fun taken => ?_
    obtain ⟨_,preload⟩ := Bool.and_eq_true_iff.mp taken
    obtain ⟨rest',rfl⟩ := head_preload head preload
    simpa [Argument.swallows,opens,other,preload] using apart (.plain next) (by simp)
  | false =>
    match argument with
    | .setting true text => exact fix_option other formed
    | .plain arg =>
      have closed : (envOption.take 4).isPrefixOf arg = false := opens
      exact fix_copy (begins_false (by decide) formed.2) fun next _ => by rw [isApart,closed,Bool.false_and]

def wrapping (path value : Bytes) : List Argument :=
  [.setting false (ldPreload ++ 61 :: (path ++ 58 :: value)),.setting false (saveLdPreload ++ 61 :: value)]

theorem wrapped_words : wrapped path value = (wrapping path value).flatMap Argument.words := by
  have colon : ascii ":" = [58] := by decide
  have saved : ascii "--env=CTI_SAVE_LD_PRELOAD=" = envOption ++ 61 :: (saveLdPreload ++ [61]) := by decide
  simp [wrapped,wrapping,Argument.words,joined_text,saved,colon]

def Argument.fixed (path : Bytes) (argument : Argument) : List Argument :=
  match argument.entry with
  | some (name,value) => if name = ldPreload then wrapping path (cut value) else [argument]
  | none => [argument]

theorem fixed_preload (entry : argument.entry = some (ldPreload,value)) : argument.fixed path = wrapping path (cut value) := by
  simp [Argument.fixed,entry]

theorem fixed_other (other : argument.sets ldPreload = false) : argument.fixed path = [argument] := by
  unfold Argument.fixed
  split
  · rename_i entry
    exact if_neg fun same => by simp [sets_entry.mpr ⟨_,same ▸ entry⟩] at other
  · rfl

theorem fix_preload (sets : argument.sets ldPreload = true) : fixArguments path (argument.words ++ rest) =
      ((argument.fixed path).flatMap Argument.words ++ (fixArguments path rest).1,true) := by
  obtain ⟨value,entry⟩ := sets_entry.mp sets
  rw [fixed_preload entry,← wrapped_words]
  match argument with
  | .setting true text =>
    obtain rfl := entryOf_name entry
    exact fix_apart (by decide) (by decide)
  | .setting false text =>
    obtain rfl := entryOf_name entry
    exact fix_joined
  | .plain arg => cases entry

theorem fixed_foreign {arguments : List Argument} :
    (arguments.flatMap (Argument.fixed path)).filter foreign = arguments.filter foreign := by
  have one : ∀ argument : Argument, (argument.fixed path).filter foreign = [argument].filter foreign := by
    intro argument
    cases sets : argument.sets ldPreload with
    | true =>
      obtain ⟨value,entry⟩ := sets_entry.mp sets
      have first : ∀ text, (Argument.setting false (ldPreload ++ 61 :: text)).sets ldPreload = true := fun text =>
        (setting_sets ldPreload_name).mpr ⟨text,rfl⟩
      have second : (Argument.setting false (saveLdPreload ++ 61 :: cut value)).sets saveLdPreload = true :=
        (setting_sets saveLdPreload_free).mpr ⟨_,rfl⟩
      simp [fixed_preload entry,wrapping,foreign,first,second,sets]
    | false => rw [fixed_other sets]
  induction arguments with
  | nil => rfl
  | cons argument rest ih => rw [flatMap_cons,filter_append,one,ih,← filter_append,singleton_append]

theorem fixed_formed {arguments : List Argument} (formed : ∀ argument ∈ arguments, argument.Formed) :
    ∀ fixed ∈ arguments.flatMap (Argument.fixed path), fixed.Formed := by
  intro fixed member
  obtain ⟨argument,inside,member⟩ := mem_flatMap.mp member
  cases sets : argument.sets ldPreload with
  | true =>
    obtain ⟨value,entry⟩ := sets_entry.mp sets
    rw [fixed_preload entry] at member
    rcases mem_pair.mp member with rfl | rfl <;> trivial
  | false =>
    rw [fixed_other sets,mem_singleton] at member
    exact member ▸ formed argument inside

end Fixing

section Reading
variable {path : Bytes} {arguments : List Argument}

def Argument.word : Argument → Bytes
  | .setting _ text => text
  | .plain arg => arg

def misread : List Argument → List Argument
  | [] => []
  | [argument] => [argument]
  | argument :: next :: rest =>
    if argument.swallows next then .setting true next.word :: misread rest else argument :: misread (next :: rest)

theorem swallowed {argument next : Argument} (swallows : argument.swallows next = true) :
    argument.opens = true ∧ argument.sets ldPreload = false ∧ ∃ value, next = .plain (ldPreload ++ 61 :: value) := by
  simp only [Argument.swallows,Bool.and_eq_true,Bool.not_eq_true'] at swallows
  obtain ⟨⟨opens,other⟩,preload⟩ := swallows
  match next with
  | .setting _ _ => cases preload
  | .plain arg =>
    rw [preload_text,begins_equals] at preload
    obtain ⟨value,rfl⟩ := preload
    exact ⟨opens,other,value,rfl⟩

theorem misread_formed (formed : ∀ argument ∈ arguments, argument.Formed) : ∀ argument ∈ misread arguments, argument.Formed := by
  fun_induction misread arguments with
  | case1 | case2 => exact formed
  | case3 argument next rest swallows ih =>
    obtain ⟨_,_,value,rfl⟩ := swallowed swallows
    rw [forall_mem_cons,forall_mem_cons] at formed
    refine forall_mem_cons.mpr ⟨?_,ih formed.2.2⟩
    intro wrong
    cases wrong
  | case4 argument next rest _ ih =>
    rw [forall_mem_cons] at formed
    exact forall_mem_cons.mpr ⟨formed.1,ih formed.2⟩

theorem misread_apart (apart : arguments.IsChain Apart) : misread arguments = arguments := by
  fun_induction misread arguments with
  | case1 | case2 => rfl
  | case3 argument next rest swallows => simp [Apart,swallows] at apart
  | case4 argument next rest _ ih => rw [ih (isChain_cons_cons.mp apart).2]

theorem misread_fewer {arguments : List Argument} : ((misread arguments).filter foreign).length ≤ (arguments.filter foreign).length ∧
      (¬arguments.IsChain Apart → ((misread arguments).filter foreign).length < (arguments.filter foreign).length) := by
  fun_induction misread arguments with
  | case1 | case2 => simp
  | case3 argument next rest swallows ih =>
    obtain ⟨_,_,value,rfl⟩ := swallowed swallows
    have sets : (Argument.setting true (ldPreload ++ 61 :: value)).sets ldPreload = true := (setting_sets ldPreload_name).mpr ⟨value,rfl⟩
    have plain : foreign (.plain (ldPreload ++ 61 :: value)) = true := rfl
    have gone : foreign (.setting true (ldPreload ++ 61 :: value)) = false := by simp [foreign,sets]
    have fewer : (rest.filter foreign).length < ((argument :: .plain (ldPreload ++ 61 :: value) :: rest).filter foreign).length := by
      rw [filter_cons,filter_cons]
      split <;> simp only [length_cons] <;> omega
    rw [Argument.word,filter_cons_of_neg (by simp [gone])]
    exact ⟨by omega,fun _ => by omega⟩
  | case4 argument next rest stays ih =>
    have chain : (argument :: next :: rest).IsChain Apart ↔ (next :: rest).IsChain Apart := by
      rw [isChain_cons_cons]
      exact and_iff_right (Bool.eq_false_iff.mpr stays)
    rw [chain,filter_cons,filter_cons]
    split
    · simpa using ih
    · exact ih

theorem fixArguments_words (formed : ∀ argument ∈ arguments, argument.Formed) : fixArguments path (arguments.flatMap Argument.words) =
      (((misread arguments).flatMap (Argument.fixed path)).flatMap Argument.words,(misread arguments).any (·.sets ldPreload)) := by
  have step : ∀ argument : Argument, ∀ rest : List Argument, argument.Formed → (∀ next ∈ rest.head?, argument.swallows next = false) →
      fixArguments path ((argument :: rest).flatMap Argument.words) =
        ((argument.fixed path).flatMap Argument.words ++ (fixArguments path (rest.flatMap Argument.words)).1,
          argument.sets ldPreload || (fixArguments path (rest.flatMap Argument.words)).2) := by
    intro argument rest formed apart
    cases sets : argument.sets ldPreload with
    | true => rw [flatMap_cons,fix_preload sets,Bool.true_or]
    | false => rw [flatMap_cons,fix_other formed sets apart,fixed_other sets,flatMap_singleton,Bool.false_or]
  fun_induction misread arguments with
  | case1 => rfl
  | case2 argument => simpa [fixArguments] using step argument [] (formed argument (by simp)) (by simp)
  | case3 argument next rest swallows ih =>
    obtain ⟨opens,other,value,rfl⟩ := swallowed swallows
    rw [forall_mem_cons,forall_mem_cons] at formed
    obtain ⟨arg,word,begins,unjoined⟩ := opening_word formed.1 opens other
    have entry : (Argument.setting true (ldPreload ++ 61 :: value)).entry = some (ldPreload,value) := entryOf_pair ldPreload_name
    rw [flatMap_cons,flatMap_cons,word,flatMap_cons,Argument.word,fixed_preload entry,flatMap_append,
      ← wrapped_words,any_cons,sets_entry.mpr ⟨value,entry⟩,Bool.true_or]
    change fixArguments path (arg :: (ldPreload ++ 61 :: value) :: rest.flatMap Argument.words) = _
    rw [fix_apart unjoined begins,ih formed.2.2]
  | case4 argument next rest stays ih =>
    rw [forall_mem_cons] at formed
    rw [step argument (next :: rest) formed.1 (by simpa using Bool.eq_false_iff.mpr stays),ih formed.2]
    simp

end Reading

section Values
variable {path : Bytes} {arguments : List Argument} {entries : List (Bytes × Bytes)}

def wrapEntry (path : Bytes) (entry : Bytes × Bytes) : List (Bytes × Bytes) :=
  if entry.1 = ldPreload then [(ldPreload,path ++ 58 :: cut entry.2),(saveLdPreload,cut entry.2)] else [entry]

theorem fixed_entries {arguments : List Argument} : (arguments.flatMap (Argument.fixed path)).filterMap Argument.entry =
    (arguments.filterMap Argument.entry).flatMap (wrapEntry path) := by
  induction arguments with
  | nil => rfl
  | cons argument rest ih =>
    have here : (argument.fixed path).filterMap Argument.entry = ([argument].filterMap Argument.entry).flatMap (wrapEntry path) := by
      cases sets : argument.sets ldPreload with
      | true =>
        obtain ⟨value,entry⟩ := sets_entry.mp sets
        have one : [argument].filterMap Argument.entry = [(ldPreload,value)] := by simp [entry]
        rw [one,fixed_preload entry]
        simp [wrapping,wrapEntry,Argument.entry,entryOf_pair ldPreload_name,entryOf_pair saveLdPreload_free]
      | false =>
        rw [fixed_other sets]
        cases entry : argument.entry with
        | none => simp [entry]
        | some pair =>
          have unequal : pair.1 ≠ ldPreload := by simpa [Argument.sets,entry] using sets
          simp [entry,wrapEntry,unequal]
    rw [flatMap_cons,filterMap_append,here,ih,← flatMap_append,← filterMap_append]
    rfl

theorem lastPreload_concat : lastPreload (entries ++ [entry]) =
    if entry.1 == ldPreload || entry.1 == saveLdPreload then some entry else lastPreload entries := by
  unfold lastPreload
  split <;> simp_all

theorem wrapped_saved : last (entries.flatMap (wrapEntry path)) saveLdPreload =
    (lastPreload entries).map fun entry => if entry.1 = ldPreload then cut entry.2 else entry.2 := by
  induction entries using reverseRecOn with
  | nil => rfl
  | append_singleton entries entry ih =>
    rw [flatMap_append,last_append,ih,lastPreload_concat]
    by_cases preload : entry.1 = ldPreload
    · simp [wrapEntry,preload,last,first]
    · by_cases save : entry.1 = saveLdPreload
      · simp [wrapEntry,save,last,first,saveLdPreload_other]
      · simp [wrapEntry,preload,save,last,first]

theorem last_lastPreload (set : last entries ldPreload = some value) :
    ∃ name saved, lastPreload entries = some (name,saved) ∧ (name = ldPreload → saved = value) := by
  induction entries using reverseRecOn with
  | nil => cases set
  | append_singleton entries entry ih =>
    rw [lastPreload_concat]
    by_cases preload : entry.1 = ldPreload
    · have same : entry.2 = value := by simpa [last,first,preload] using set
      exact ⟨entry.1,entry.2,if_pos (by simp [preload]),fun _ => same⟩
    · have earlier : last entries ldPreload = some value := by simpa [last,first,preload] using set
      by_cases save : entry.1 = saveLdPreload
      · exact ⟨entry.1,entry.2,if_pos (by simp [save]),fun own => absurd own preload⟩
      · simpa [preload,save] using ih earlier

theorem unset_entries (unset : last entries ldPreload = none) : entries.flatMap (wrapEntry path) = entries := by
  rw [last,first_none] at unset
  have single : ∀ entry ∈ entries, wrapEntry path entry = [entry] := fun entry member =>
    if_neg (unset entry (mem_reverse.mpr member))
  rw [flatMap_congr single]
  exact flatMap_singleton' entries

theorem job_value : jobEnvironment envList arguments name =
    (last (arguments.filterMap Argument.entry) name).or (last (envList.filterMap entryOf) name) := by
  rw [jobEnvironment,setAll_last,last_append,Option.or_none]

theorem launch_value (own : name = ldPreload ∨ name = saveLdPreload) :
    last ((fixLaunchEnvironment launcherName envList).filterMap entryOf) name = last ((envList.getD []).filterMap entryOf) name := by
  unfold fixLaunchEnvironment
  rw [filterMap_append,last_append]
  suffices none' : last (List.filterMap entryOf _) name = none by rw [none',Option.none_or]
  rcases own with rfl | rfl <;> cases launcherName == ascii "aprun" <;> decide

theorem constructor_value : palsInitConstructor env ldPreload = env saveLdPreload := by
  have settable : Settable ldPreload ∧ Settable saveLdPreload := by decide
  have kept : env.unset ldPreload saveLdPreload = env saveLdPreload := by simp [unset,put,saveLdPreload_other]
  unfold palsInitConstructor unsetenv setenv
  simp only [kept,settable.1,settable.2,if_true]
  cases env saveLdPreload with
  | none => simp [unset,put]
  | some value => simp [Environment.unset,Environment.put,Environment.set,saveLdPreload_other.symm]

end Values

section Transparency
variable {path : Bytes}

def leading (path : Bytes) (found : Bool) : List Argument := if found then [] else [.setting false (ldPreload ++ 61 :: path)]

theorem leading_foreign : (leading path found).filter foreign = [] := by
  have sets : (Argument.setting false (ldPreload ++ 61 :: path)).sets ldPreload = true := (setting_sets ldPreload_name).mpr ⟨path,rfl⟩
  cases found <;> simp [leading,foreign,sets]

def relaunched (path : Bytes) (arguments : List Argument) : List Argument :=
  leading path (arguments.any (·.sets ldPreload)) ++ arguments.flatMap (Argument.fixed path)

theorem parse_fixed (used : path ≠ []) (args : LauncherArgs) :
    parse (fixLaunchArguments path (some args.words)) = relaunched path (misread args.arguments) := by
  have formed : ∀ argument ∈ relaunched path (misread args.arguments), argument.Formed := by
    intro argument member
    rcases mem_append.mp member with here | later
    · unfold leading at here
      split at here
      · cases here
      · exact mem_singleton.mp here ▸ trivial
    · exact fixed_formed (misread_formed args.formed) argument later
  have all : fixLaunchArguments path (some args.words) = (relaunched path (misread args.arguments)).flatMap Argument.words := by
    simp only [fixLaunchArguments,if_pos used,LauncherArgs.words,fixArguments_words args.formed,relaunched,flatMap_append]
    cases (misread args.arguments).any (·.sets ldPreload) <;> simp [leading,Argument.words,joined_text]
  rw [all,parse_words formed]

theorem relaunched_kept {arguments : List Argument} :
    (arguments.filter (!·.sets ldPreload)).Sublist ((relaunched path arguments).filter (!·.sets ldPreload)) := by
  rw [relaunched,filter_append]
  refine List.Sublist.trans ?_ (sublist_append_right _ _)
  induction arguments with
  | nil => exact List.Sublist.slnil
  | cons argument rest ih =>
    rw [flatMap_cons,filter_append,← singleton_append,filter_append]
    refine List.Sublist.append ?_ ih
    cases sets : argument.sets ldPreload with
    | true => simp [sets]
    | false => rw [fixed_other sets]

theorem relaunched_foreign {arguments : List Argument} : (relaunched path arguments).filter foreign = arguments.filter foreign := by
  rw [relaunched,filter_append,leading_foreign,nil_append,fixed_foreign]

theorem restored_iff :
    palsInitConstructor (jobEnvironment (fixLaunchEnvironment launcherName envList) (relaunched path arguments)) ldPreload =
      jobEnvironment (fixLaunchEnvironment launcherName envList) arguments ldPreload ↔
    Saved ((envList.getD []).filterMap entryOf) (arguments.filterMap Argument.entry) := by
  have front : ∀ found, last ((leading path found).filterMap Argument.entry) saveLdPreload = none := by
    intro found
    cases found <;> simp [leading,Argument.entry,entryOf_pair ldPreload_name,last,first,saveLdPreload_other.symm]
  rw [constructor_value,job_value,job_value,launch_value (.inl rfl),launch_value (.inr rfl),relaunched,
    filterMap_append,last_append,fixed_entries,front,Option.or_none]
  unfold Saved
  cases set : last (arguments.filterMap Argument.entry) ldPreload with
  | none => rw [unset_entries set,last_append,Option.none_or]
  | some value =>
    obtain ⟨name,saved,lastOne,own⟩ := last_lastPreload set
    rw [wrapped_saved]
    by_cases preload : name = ldPreload
    · simp [lastOne,preload,own preload,cut_whole]
    · simp [lastOne,preload]

def settingArgs : LauncherArgs where
  arguments := [.setting false (ascii "LD_PRELOAD=/opt/a.so"),.plain (ascii "./app")]
  formed := by
    simp only [mem_cons,not_mem_nil,or_false,forall_eq_or_imp,forall_eq]
    exact ⟨trivial,by decide,by decide⟩

def plainArgs : LauncherArgs where
  arguments := [.plain (ascii "./app")]
  formed := by
    simp only [mem_cons,not_mem_nil,or_false,forall_eq]
    exact ⟨by decide,by decide⟩

end Transparency

end CommonTools.Pals
