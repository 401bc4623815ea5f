import CommonTools.Library.ShellLines
import CommonTools.FeDaemon.LaunchEnvironment

namespace CommonTools.Remote
open FeDaemon hiding plain Command
open Shell

-- args[0] is there.
abbrev Argv := {args : List CStr // args ≠ []}

def Argv.texts (args : Argv) : List Bytes := args.1.map Subtype.val

-- What goes over the channel: the settings that are asked for, and the line that the
-- login shell of the remote host is given.
structure Request where
  setenv : List (Bytes × Bytes)
  exec : Bytes
  deriving DecidableEq

def joined : List Bytes → Bytes
  | [] => []
  | arg :: rest => arg ++ rest.flatMap fun arg => 32 :: arg

def setting (entry : CStr) : Option (Bytes × Bytes) :=
  let (var,val) := splitTwo entry.1 61
  if val = [] then none else some (var,val)

def executeRemoteCommand (args : Argv) (env : List CStr) (synchronous : Bool) : Request :=
  let argvString := joined args.texts
  ⟨env.filterMap setting,
    if synchronous then argvString ++ ascii "< /dev/null > /dev/null 2>&1"
    else ascii "nohup " ++ argvString ++ ascii " < /dev/null > /dev/null 2>&1 &"⟩

def daemonVariables : List Bytes := [ascii "CTI_DEBUG",ascii "CTI_LOG_DIR",ascii "PATH",ascii "LD_LIBRARY_PATH"]

def settings (getenv : Bytes → Option CStr) : List (Bytes × Bytes) :=
  daemonVariables.filterMap fun arg => (getenv arg).map fun val => (arg,val.1)

def startRemoteCommand (getenv : Bytes → Option CStr) (argv : Argv) : Request :=
  ⟨[],(settings getenv).flatMap (fun row => row.1 ++ 61 :: row.2 ++ [32]) ++ argv.texts.flatMap fun arg => arg ++ [32]⟩

def devNull : Bytes := ascii "/dev/null"

def ownRedirections : List Redirection := [⟨none,[60],devNull⟩,⟨none,[62],devNull⟩,⟨some [50],[62,38],[49]⟩]

-- The program that nohup becomes. An operand with a dash in front is an option.
def nohup : List Bytes → Option (List Bytes)
  | [] => none
  | utility :: args => if utility.head? = some 45 then none else some (utility :: args)

def meant (env : List CStr) : List (Bytes × Bytes) :=
  env.filterMap fun entry => if 61 ∈ entry.1 then some (envEntry entry.1) else none

structure Executes (args : Argv) (env : List CStr) (synchronous : Bool) : Prop where
  environment : (executeRemoteCommand args env synchronous).setenv = meant env
  program : match synchronous with
    | true => command (executeRemoteCommand args env true).exec = some ⟨[],args.texts,ownRedirections,false⟩
    | false => command (executeRemoteCommand args env false).exec = some ⟨[],ascii "nohup" :: args.texts,ownRedirections,true⟩ ∧
      nohup args.texts = some args.texts

def Starts (getenv : Bytes → Option CStr) (argv : Argv) : Prop :=
  command (startRemoteCommand getenv argv).exec = some ⟨settings getenv,argv.texts,[],false⟩

theorem filterMap_same (fewer : ∀ entry, g entry = none → f entry = none)
    {env : List CStr} : env.filterMap f = env.filterMap g ↔ ∀ entry ∈ env, f entry = g entry := by
  have shorter : ∀ env : List CStr, (env.filterMap f).length ≤ (env.filterMap g).length := by
    intro env
    induction env with
    | nil => exact Nat.le_refl _
    | cons entry env ih =>
      cases given : g entry with
      | none => simpa [List.filterMap_cons,given,fewer entry given] using ih
      | some row =>
        cases taken : f entry with
        | none => simpa [List.filterMap_cons,given,taken] using Nat.le_succ_of_le ih
        | some other => simpa [List.filterMap_cons,given,taken] using ih
  induction env with
  | nil => simp
  | cons entry env ih =>
    cases given : g entry with
    | none => simp [List.filterMap_cons,given,fewer entry given,ih]
    | some row =>
      cases taken : f entry with
      | some other => simp [List.filterMap_cons,given,taken,ih]
      | none =>
        refine ⟨fun same => ?_,fun all => ?_⟩
        · have left := shorter env
          simp [List.filterMap_cons,given,taken] at same
          simp [same] at left
        · have here := all entry List.mem_cons_self
          simp [given,taken] at here

theorem setting_exact (named : 61 ∈ entry.1) :
    setting entry = some (envEntry entry.1) ↔ (envEntry entry.1).2 ≠ [] ∧ Whole 61 (envEntry entry.1).2 := by
  have name := splitTwo_name named
  have value := splitTwo_value named
  have read : setting entry = if (splitTwo entry.1 61).2 = [] then none else some (splitTwo entry.1 61) := rfl
  rw [read,← value]
  constructor
  · intro taken
    split at taken
    · cases taken
    · rename_i present
      have same := Option.some.inj taken
      rw [same] at present ⊢
      exact ⟨present,rfl⟩
  · intro both
    obtain ⟨present,same⟩ := both
    rw [same,if_neg present]
    exact congrArg some (Prod.ext name same)

theorem setting_unnamed (unnamed : 61 ∉ entry.1) : setting entry = none := by
  have rest : takeField 61 ([],false) = ([],[],false) := rfl
  simp only [setting,splitTwo,takeField_free unnamed,rest]
  rfl

theorem environment_exact : (executeRemoteCommand args env synchronous).setenv = meant env ↔
      ∀ entry ∈ env, 61 ∈ entry.1 → (envEntry entry.1).2 ≠ [] ∧ Whole 61 (envEntry entry.1).2 := by
  have fewer : ∀ entry : CStr, (if 61 ∈ entry.1 then some (envEntry entry.1) else none) = none → setting entry = none := by
    intro entry nothing
    refine setting_unnamed fun named => ?_
    rw [if_pos named] at nothing
    cases nothing
  refine (filterMap_same fewer).trans (forall₂_congr fun entry _ => ?_)
  by_cases named : 61 ∈ entry.1
  · rw [if_pos named,setting_exact named]
    exact ⟨fun kept _ => kept,fun all => all named⟩
  · rw [if_neg named,setting_unnamed named]
    exact ⟨fun _ present => absurd present named,fun _ => rfl⟩

structure Literal (text : Bytes) : Prop where
  bare : Bare text
  tilde : tilded (plain text) = false
  pattern : patterned (plain text) = false

theorem joined_more (more : args ≠ []) : joined (arg :: args) = arg ++ 32 :: joined args := by
  cases args with
  | nil => exact absurd rfl more
  | cons next rest => simp [joined]

theorem joined_snoc : joined (init ++ [last]) = (init.flatMap fun arg => arg ++ [32]) ++ last := by
  induction init with
  | nil => simp [joined]
  | cons arg init ih =>
    rw [List.cons_append,joined_more (by simp),ih]
    simp

theorem joined_quotes : (joined args).countP isQuote = args.flatten.countP isQuote := by
  have blank : isQuote 32 = false := by decide
  induction args with
  | nil => rfl
  | cons arg rest ih =>
    by_cases more : rest = []
    · simp [more,joined]
    · rw [joined_more more]
      simp [ih,blank]

theorem read_joined (bare : ∀ text ∈ init ++ [last], Bare text) : (joined (init ++ [last])).foldl Lexer.step .initial =
      ⟨.plain,(init.map plain).map Token.word,.word (plain last)⟩ := by
  rw [joined_snoc,List.foldl_append,Lexer.initial,read_words fun text inside => bare text (List.mem_append_left _ inside),
    List.nil_append,read_bare (bare last (by simp))]

section Lines
variable {init : List Bytes} {last : Bytes}

def tailTokens : List Token :=
  [.operator [60],.word (plain devNull),.operator [62],.word (plain devNull),.number (plain [50]),.operator [62,38],
    .word (plain [49])]

theorem tokens_synchronous (bare : ∀ text ∈ init ++ [last], Bare text) :
    tokens (joined (init ++ [last]) ++ ascii "< /dev/null > /dev/null 2>&1") =
      some ((init.map plain).map Token.word ++ (if digits (plain last) then Token.number else Token.word) (plain last) :: tailTokens) := by
  have first : Lexer.step ⟨.plain,(init.map plain).map Token.word,.word (plain last)⟩ 60 = Lexer.after ⟨.plain,[],.operator [60]⟩
      ((init.map plain).map Token.word ++ [(if digits (plain last) then Token.number else Token.word) (plain last)]) := by
    have kinds : kind 60 = .operator := by decide
    cases number : digits (plain last) <;> simp [Lexer.step,kinds,Lexer.operate,number,Lexer.after,Lexer.flush]
  have rest : (ascii " /dev/null > /dev/null 2>&1").foldl Lexer.step ⟨.plain,[],.operator [60]⟩ =
      ⟨.plain,tailTokens.dropLast,.word (plain [49])⟩ := by decide
  have line : ascii "< /dev/null > /dev/null 2>&1" = 60 :: ascii " /dev/null > /dev/null 2>&1" := by decide
  have read : lex (joined (init ++ [last]) ++ ascii "< /dev/null > /dev/null 2>&1") =
      Lexer.after ⟨.plain,tailTokens.dropLast,.word (plain [49])⟩
        ((init.map plain).map Token.word ++ [(if digits (plain last) then Token.number else Token.word) (plain last)]) := by
    rw [lex,List.foldl_append,read_joined bare,line,List.foldl_cons,first,after_fold,rest]
  unfold tokens
  rw [read]
  simp [Lexer.after,Lexer.flush,tailTokens]

theorem tokens_background (bare : ∀ text ∈ init ++ [last], Bare text) :
    tokens (joined (init ++ [last]) ++ ascii " < /dev/null > /dev/null 2>&1 &") =
      some (((init ++ [last]).map plain).map Token.word ++ (tailTokens ++ [.operator [38]])) := by
  have first : Lexer.step ⟨.plain,(init.map plain).map Token.word,.word (plain last)⟩ 32 =
      Lexer.after .initial (((init ++ [last]).map plain).map Token.word) := by
    simp [Lexer.step,show kind 32 = .blank by decide,Lexer.flush,Lexer.after,Lexer.initial]
  have rest : (ascii "< /dev/null > /dev/null 2>&1 &").foldl Lexer.step .initial = ⟨.plain,tailTokens,.operator [38]⟩ := by decide
  have line : ascii " < /dev/null > /dev/null 2>&1 &" = 32 :: ascii "< /dev/null > /dev/null 2>&1 &" := by decide
  have read : lex (joined (init ++ [last]) ++ ascii " < /dev/null > /dev/null 2>&1 &") =
      Lexer.after ⟨.plain,tailTokens,.operator [38]⟩ (((init ++ [last]).map plain).map Token.word) := by
    rw [lex,List.foldl_append,read_joined bare,line,List.foldl_cons,first,after_fold,rest]
  unfold tokens
  rw [read]
  simp [Lexer.after,Lexer.flush]

theorem command_read {line : Bytes} {read : List Token} {simple : Simple} (lexed : tokens line = some read)
    (parsed : parse read = some simple) : command line = simple.command := by
  simp [command,lexed,parsed]

theorem parse_tail : parse tailTokens = some ⟨[],ownRedirections,false⟩ := by decide

theorem parse_background : parse (tailTokens ++ [.operator [38]]) = some ⟨[],ownRedirections,true⟩ := by decide

theorem command_synchronous (settled : Settled [] (init ++ [last])) (word : digits (plain last) = false) :
    command (joined (init ++ [last]) ++ ascii "< /dev/null > /dev/null 2>&1") = some ⟨[],init ++ [last],ownRedirections,false⟩ := by
  have lexed := tokens_synchronous settled.bare
  rw [word] at lexed
  have parsed := parse_words ((init ++ [last]).map plain) tailTokens
  rw [parse_tail,List.map_append,List.map_append,List.append_assoc] at parsed
  rw [command_read lexed parsed]
  simpa [texts] using simple_settled settled

theorem synchronous_number (bare : ∀ text ∈ init ++ [last], Bare text) (number : digits (plain last) = true) {c : Command}
    (found : command (joined (init ++ [last]) ++ ascii "< /dev/null > /dev/null 2>&1") = some c) : texts c.assignments c.argv = init := by
  have lexed := tokens_synchronous bare
  rw [number] at lexed
  have redirected : parse (.number (plain last) :: tailTokens) =
      some ⟨[],⟨some last,[60],devNull⟩ :: ownRedirections.tail,false⟩ := by
    have rest : parse (tailTokens.drop 2) = some ⟨[],ownRedirections.tail,false⟩ := by decide
    have operator : redirecting [60] = true := by decide
    have parts : tailTokens = .operator [60] :: .word (plain devNull) :: tailTokens.drop 2 := rfl
    rw [parts,parse,if_pos operator,rest]
    simp
  have parsed := parse_words (init.map plain) (.number (plain last) :: tailTokens)
  rw [command_read lexed parsed] at found
  have taken := tested_texts (command_tested found)
  rw [taken]
  simp [Function.comp_def]

theorem command_background (settled : Settled [] (init ++ [last])) :
    command (joined (init ++ [last]) ++ ascii " < /dev/null > /dev/null 2>&1 &") = some ⟨[],init ++ [last],ownRedirections,true⟩ := by
  have parsed := parse_words ((init ++ [last]).map plain) (tailTokens ++ [.operator [38]])
  rw [parse_background] at parsed
  rw [command_read (tokens_background settled.bare) parsed]
  simpa [texts] using simple_settled settled

end Lines

section Programs
variable {args : List Bytes}

theorem settled_iff : Settled [] args ↔ (∀ text ∈ args, Literal text) ∧
    ∀ first ∈ args.head?, (plain first).reserved = false ∧ (plain first).assigns = false := by
  constructor
  · intro settled
    refine ⟨fun text inside => ?_,fun first here => ⟨settled.unreserved first here,settled.program first here⟩⟩
    obtain ⟨tilde,pattern⟩ := settled.literal text inside
    exact ⟨settled.bare text inside,tilde,pattern⟩
  · intro both
    obtain ⟨literal,program⟩ := both
    exact ⟨fun text inside => (literal text inside).bare,fun text inside => ⟨(literal text inside).tilde,(literal text inside).pattern⟩,
      fun row inside => absurd inside List.not_mem_nil,fun first here => (program first here).1,
      fun first here => (program first here).2⟩

theorem synchronous_exact (present : args ≠ []) :
    command (joined args ++ ascii "< /dev/null > /dev/null 2>&1") = some ⟨[],args,ownRedirections,false⟩ ↔
      Settled [] args ∧ ∀ last ∈ args.getLast?, digits (plain last) = false := by
  obtain ⟨init,last,rfl⟩ := args.eq_nil_or_concat'.resolve_left present
  rw [List.getLast?_concat]
  constructor
  · intro found
    have settled : Settled [] (init ++ [last]) := by
      refine settled_of_command found ?_
      have none : (ascii "< /dev/null > /dev/null 2>&1").countP isQuote = 0 := by decide
      rw [List.countP_append,none,joined_quotes]
      exact Nat.le_refl _
    refine ⟨settled,fun other same => ?_⟩
    cases same
    by_contra number
    have short := synchronous_number settled.bare (by simpa using number) found
    have lengths := congrArg List.length short
    simp [texts] at lengths
  · intro both
    exact command_synchronous both.1 (both.2 last rfl)

theorem background_exact (present : args ≠ []) :
    command (joined args ++ ascii " < /dev/null > /dev/null 2>&1 &") = some ⟨[],args,ownRedirections,true⟩ ↔ Settled [] args := by
  obtain ⟨init,last,rfl⟩ := args.eq_nil_or_concat'.resolve_left present
  refine ⟨fun found => settled_of_command found ?_,command_background⟩
  have none : (ascii " < /dev/null > /dev/null 2>&1 &").countP isQuote = 0 := by decide
  rw [List.countP_append,none,joined_quotes]
  exact Nat.le_refl _

theorem nohup_exact (present : args ≠ []) : nohup args = some args ↔ ∀ first ∈ args.head?, first.head? ≠ some 45 := by
  cases args with
  | nil => exact absurd rfl present
  | cons utility rest => simp [nohup]

theorem nohup_settled : Settled [] (ascii "nohup" :: args) ↔ ∀ text ∈ args, Literal text := by
  have word : Bare (ascii "nohup") := ⟨by decide,by decide,by decide +kernel⟩
  have literal : Literal (ascii "nohup") := ⟨word,by decide,by decide⟩
  have program : (plain (ascii "nohup")).reserved = false ∧ (plain (ascii "nohup")).assigns = false := by decide
  rw [settled_iff]
  simp [literal,program]

end Programs

section Starting
variable {getenv : Bytes → Option CStr} {args : List Bytes}

theorem setting_variable (inside : row ∈ settings getenv) : row.1 ∈ daemonVariables := by
  obtain ⟨name,listed,made⟩ := List.mem_filterMap.mp inside
  obtain ⟨value,_,rfl⟩ := Option.map_eq_some_iff.mp made
  exact listed

theorem variable_name : ∀ name ∈ daemonVariables, isName name = true ∧ Bare name := by
  intro name listed
  have checks : ∀ name ∈ daemonVariables, isName name = true ∧ name ≠ [] ∧ name.head? ≠ some 35 ∧
      ∀ b ∈ name, kind b = .ordinary := by decide +kernel
  obtain ⟨named,nonempty,start,bytes⟩ := checks name listed
  exact ⟨named,nonempty,start,bytes⟩

theorem setting_bare (bare : Bare name) : Bare (name ++ 61 :: value) ↔ ∀ b ∈ value, kind b = .ordinary := by
  have sign : kind 61 = .ordinary := by decide
  constructor
  · intro whole b inside
    exact whole.bytes b (by simp [inside])
  · intro ordinary
    refine ⟨by simp,?_,fun b inside => ?_⟩
    · rw [List.head?_append_of_ne_nil _ bare.nonempty]
      exact bare.start
    · rcases List.mem_append.mp inside with left | right
      · exact bare.bytes b left
      · rcases List.mem_cons.mp right with rfl | right
        · exact sign
        · exact ordinary b right

theorem sign_unreserved (sign : 61 ∈ text) : (plain text).reserved = false := by
  have words : ∀ word ∈ reservedWords, 61 ∉ word := by decide
  have listed : text ∉ reservedWords := fun inside => words text inside sign
  have colon : text.getLast? = some 58 → isName text.dropLast = false := by
    intro last
    by_contra named
    refine name_free (by simpa using named) ?_
    rw [← List.dropLast_append_getLast? 58 last] at sign
    simpa using sign
  rw [Word.reserved]
  by_cases last : text.getLast? = some 58
  · simp [listed,colon last]
  · simp [listed,last]

theorem start_line : (startRemoteCommand getenv argv).exec = (texts (settings getenv) argv.texts).flatMap fun text => text ++ [32] := by
  rw [startRemoteCommand,texts,List.flatMap_append,List.flatMap_map]

theorem blanks_quotes {words : List Bytes} : (words.flatMap fun text => text ++ [32]).countP isQuote = words.flatten.countP isQuote := by
  have blank : isQuote 32 = false := by decide
  induction words with
  | nil => rfl
  | cons text words ih => simp [ih,blank]

theorem start_exact {assignments : List (Bytes × Bytes)} :
    command ((texts assignments args).flatMap fun text => text ++ [32]) = some ⟨assignments,args,[],false⟩ ↔ Settled assignments args := by
  constructor
  · intro found
    exact settled_of_command found (Nat.le_of_eq blanks_quotes)
  · intro settled
    have lexed : tokens ((texts assignments args).flatMap fun text => text ++ [32]) =
        some (((texts assignments args).map plain).map Token.word ++ []) := by
      unfold tokens
      rw [lex,Lexer.initial,read_words settled.bare]
      simp [Lexer.flush]
    rw [command_read lexed (parse_words _ [])]
    simpa [parse] using simple_settled settled

theorem start_settled : Settled (settings getenv) args ↔ (∀ text ∈ args, Literal text) ∧
    (∀ row ∈ settings getenv, (∀ b ∈ row.2, kind b = .ordinary) ∧ tildedValue (plain row.2) = false) ∧
    ∀ first ∈ args.head?, (plain first).assigns = false ∧ (settings getenv = [] → (plain first).reserved = false) := by
  have named := fun row (inside : row ∈ settings getenv) => variable_name row.1 (setting_variable inside)
  constructor
  · intro settled
    refine ⟨fun text inside => ?_,fun row inside => ⟨?_,(settled.values row inside).2⟩,fun first here =>
      ⟨settled.program first here,fun empty => settled.unreserved first ?_⟩⟩
    · obtain ⟨tilde,pattern⟩ := settled.literal text inside
      exact ⟨settled.bare text (List.mem_append_right _ inside),tilde,pattern⟩
    · refine (setting_bare (named row inside).2).mp (settled.bare _ (List.mem_append_left _ ?_))
      exact List.mem_map_of_mem inside
    · simpa [texts,empty] using here
  · intro all
    obtain ⟨literal,values,program⟩ := all
    refine ⟨fun text inside => ?_,fun text inside => ⟨(literal text inside).tilde,(literal text inside).pattern⟩,
      fun row inside => ⟨(named row inside).1,(values row inside).2⟩,fun first here => ?_,fun first here => (program first here).1⟩
    · rcases List.mem_append.mp inside with left | right
      · obtain ⟨row,listed,rfl⟩ := List.mem_map.mp left
        exact (setting_bare (named row listed).2).mpr (values row listed).1
      · exact (literal text right).bare
    · cases given : settings getenv with
      | nil =>
        rw [given] at here
        exact (program first here).2 given
      | cons row rest =>
        rw [given] at here
        cases here
        exact sign_unreserved (by simp)

end Starting

-- The arguments and values that the lines carry as they are: no byte of them is quoted, so
-- none may mean anything to the shell, and no word may be taken for something else in its place.
theorem remote_commands_exact (args : Argv) (env : List CStr) (getenv : Bytes → Option CStr) : (Executes args env true ↔
      (∀ entry ∈ env, 61 ∈ entry.1 → (envEntry entry.1).2 ≠ [] ∧ Whole 61 (envEntry entry.1).2) ∧ (∀ text ∈ args.texts, Literal text) ∧
      (∀ first ∈ args.texts.head?, (plain first).reserved = false ∧ (plain first).assigns = false) ∧
      ∀ last ∈ args.texts.getLast?, digits (plain last) = false) ∧ (Executes args env false ↔
      (∀ entry ∈ env, 61 ∈ entry.1 → (envEntry entry.1).2 ≠ [] ∧ Whole 61 (envEntry entry.1).2) ∧ (∀ text ∈ args.texts, Literal text) ∧
      ∀ first ∈ args.texts.head?, first.head? ≠ some 45) ∧ (Starts getenv args ↔ (∀ text ∈ args.texts, Literal text) ∧
      (∀ row ∈ settings getenv, (∀ b ∈ row.2, kind b = .ordinary) ∧ tildedValue (plain row.2) = false) ∧
      ∀ first ∈ args.texts.head?, (plain first).assigns = false ∧ (settings getenv = [] → (plain first).reserved = false)) := by
  have present : args.texts ≠ [] := List.map_eq_nil_iff.not.mpr args.2
  refine ⟨?_,?_,?_⟩
  · have program := synchronous_exact present
    rw [settled_iff,and_assoc] at program
    rw [← environment_exact,← program]
    exact ⟨fun executes => ⟨executes.environment,executes.program⟩,fun both => ⟨both.1,both.2⟩⟩
  · have line : (executeRemoteCommand args env false).exec =
        joined (ascii "nohup" :: args.texts) ++ ascii " < /dev/null > /dev/null 2>&1 &" := by
      rw [joined_more present]
      rfl
    have program := background_exact (List.cons_ne_nil (ascii "nohup") args.texts)
    rw [nohup_settled,← line] at program
    rw [← environment_exact,← nohup_exact present,← program]
    exact ⟨fun executes => ⟨executes.environment,executes.program⟩,fun both => ⟨both.1,both.2⟩⟩
  · rw [Starts,start_line,start_exact,start_settled]

-- One argument with a blank in it, for a program that is started in the background.
def reportArgs : Argv := ⟨[⟨ascii "/tmp/tool",by decide⟩,⟨ascii "a b",by decide⟩],List.cons_ne_nil _ _⟩

-- The frontend's signal command. Its last pid is read as the number of a file descriptor.
def killArgs : Argv :=
  ⟨[⟨ascii "kill",by decide⟩,⟨ascii "-15",by decide⟩,⟨ascii "1234",by decide⟩],List.cons_ne_nil _ _⟩

theorem arguments_not_kept : (command (executeRemoteCommand reportArgs [] false).exec =
      some ⟨[],[ascii "nohup",ascii "/tmp/tool",ascii "a",ascii "b"],ownRedirections,true⟩ ∧ ¬ Executes reportArgs [] false) ∧
    command (executeRemoteCommand killArgs [] true).exec =
      some ⟨[],[ascii "kill",ascii "-15"],⟨some (ascii "1234"),[60],devNull⟩ :: ownRedirections.tail,false⟩ ∧
      ¬ Executes killArgs [] true := by
  have split : command (executeRemoteCommand reportArgs [] false).exec =
      some ⟨[],[ascii "nohup",ascii "/tmp/tool",ascii "a",ascii "b"],ownRedirections,true⟩ := by decide
  have taken : command (executeRemoteCommand killArgs [] true).exec =
      some ⟨[],[ascii "kill",ascii "-15"],⟨some (ascii "1234"),[60],devNull⟩ :: ownRedirections.tail,false⟩ := by decide
  refine ⟨⟨split,fun executes => ?_⟩,taken,fun executes => ?_⟩
  · have program := split.symm.trans executes.program.1
    exact absurd program (by decide)
  · have program := taken.symm.trans executes.program
    exact absurd program (by decide)

end CommonTools.Remote
