import Mathlib.Data.List.Flatten
import CommonTools.Library.Texts
import CommonTools.Library.Shell

-- Lines of words that stand for themselves, and what a command says about its line.
namespace Shell
open List
open Word hiding name text
open Lexer hiding mode

theorem parse_sublist {tokens : List Token} {simple : Simple} (parsed : parse tokens = some simple) :
    (simple.words.map Token.word).Sublist tokens := by
  induction tokens using parse.induct generalizing simple with
  | case1 =>
    cases parsed
    exact .slnil
  | case2 word rest ih =>
    obtain ⟨inner,found,rfl⟩ := Option.map_eq_some_iff.mp parsed
    exact (ih found).cons_cons _
  | case3 number operator target rest redirects ih =>
    rw [parse,if_pos redirects] at parsed
    obtain ⟨inner,found,rfl⟩ := Option.map_eq_some_iff.mp parsed
    exact (((ih found).cons _).cons _).cons _
  | case4 number operator target rest other =>
    rw [parse,if_neg other] at parsed
    cases parsed
  | case5 operator target rest redirects ih =>
    rw [parse,if_pos redirects] at parsed
    obtain ⟨inner,found,rfl⟩ := Option.map_eq_some_iff.mp parsed
    exact ((ih found).cons _).cons _
  | case6 operator target rest other =>
    rw [parse,if_neg other] at parsed
    cases parsed
  | case7 =>
    cases parsed
    exact nil_sublist _
  | case8 operator other =>
    rw [parse,if_neg other] at parsed
    cases parsed
  | case9 tokens empty words numbers redirects last =>
    rw [parse] at parsed
    · cases parsed
    all_goals assumption

theorem parse_words (words : List Word) (tokens : List Token) : parse (words.map Token.word ++ tokens) =
    (parse tokens).map fun simple => ⟨words ++ simple.words,simple.redirections,simple.background⟩ := by
  induction words with
  | nil => simp
  | cons word words ih => simp [parse,ih,Function.comp_def]

def Lexer.after (lexer : Lexer) (earlier : List Token) : Lexer := ⟨lexer.mode,earlier ++ lexer.tokens,lexer.part⟩

theorem after_flush (lexer : Lexer) (earlier : List Token) : (lexer.after earlier).flush = earlier ++ lexer.flush := by
  unfold Lexer.flush Lexer.after
  cases lexer.part <;> simp

theorem after_push {lexer : Lexer} : (lexer.after earlier).push mode marks = (lexer.push mode marks).after earlier := by
  have flushed := after_flush lexer earlier
  unfold push
  cases part : lexer.part <;> simp [Lexer.after,part] at flushed ⊢ <;> exact flushed

theorem after_operate {lexer : Lexer} : (lexer.after earlier).operate b = (lexer.operate b).after earlier := by
  have flushed := after_flush lexer earlier
  unfold operate
  cases part : lexer.part with
  | nothing => simp [Lexer.after,part]
  | word marks | operator text =>
    simp only [Lexer.after,part] at flushed ⊢
    split <;> simp [flushed]

theorem after_take {lexer : Lexer} : (lexer.after earlier).take b = (lexer.take b).after earlier := by
  have flushed := after_flush lexer earlier
  unfold Lexer.take
  cases part : lexer.part with
  | word marks => simp [Lexer.after,part]
  | nothing | operator text =>
    simp only [Lexer.after,part] at flushed ⊢
    split <;> simp [flushed]

theorem after_step {lexer : Lexer} : (lexer.after earlier).step b = (lexer.step b).after earlier := by
  have flushed := after_flush lexer earlier
  have kept : ∀ mode, mk mode (lexer.after earlier).tokens (lexer.after earlier).part =
      (mk mode lexer.tokens lexer.part).after earlier := fun _ => rfl
  have cut : ∀ mode part, mk mode (lexer.after earlier).flush part = (mk mode lexer.flush part).after earlier := by
    intro mode part
    rw [flushed]
    rfl
  have mode : (lexer.after earlier).mode = lexer.mode := rfl
  unfold step
  rw [mode]
  cases lexer.mode with
  | plain =>
    cases kind b with
    | backslash => exact kept _
    | single | double => exact after_push
    | expansion => exact kept _
    | operator => exact after_operate
    | blank => exact cut _ _
    | ordinary => exact after_take
  | escape | single =>
    dsimp only
    split
    · exact kept _
    · exact after_push
  | double =>
    cases kind b with
    | double | backslash | expansion => exact kept _
    | _ => exact after_push
  | doubleEscape =>
    dsimp only
    split
    · exact after_push
    · split
      · exact kept _
      · exact after_push
  | comment =>
    dsimp only
    split
    · exact cut _ _
    · rfl
  | expansion => rfl

theorem after_fold {line : List UInt8} {lexer : Lexer} : line.foldl step (lexer.after earlier) = (line.foldl step lexer).after earlier := by
  induction line generalizing lexer with
  | nil => rfl
  | cons b line ih => rw [foldl_cons,foldl_cons,after_step,ih]

theorem read_more {text : List UInt8} (ordinary : ∀ b ∈ text, kind b = .ordinary) {tokens : List Token} {word : Word} :
    text.foldl step ⟨.plain,tokens,.word word⟩ = ⟨.plain,tokens,.word (word ++ plain text)⟩ := by
  induction text generalizing word with
  | nil => simp [plain]
  | cons b text ih =>
    have here : Lexer.step ⟨.plain,tokens,.word word⟩ b = ⟨.plain,tokens,.word (word ++ [(b,false)])⟩ := by
      simp [Lexer.step,ordinary b mem_cons_self,Lexer.take]
    rw [foldl_cons,here,ih fun c inside => ordinary c (mem_cons_of_mem _ inside)]
    simp [plain]

theorem read_bare {text : List UInt8} (bare : Bare text) {tokens : List Token} :
    text.foldl step ⟨.plain,tokens,.nothing⟩ = ⟨.plain,tokens,.word (plain text)⟩ := by
  cases text with
  | nil => exact absurd rfl bare.nonempty
  | cons b text =>
    have start : b ≠ 35 := by simpa using bare.start
    have here : Lexer.step ⟨.plain,tokens,.nothing⟩ b = ⟨.plain,tokens,.word [(b,false)]⟩ := by
      simp [Lexer.step,bare.bytes b mem_cons_self,Lexer.take,start,Lexer.flush]
    rw [foldl_cons,here,read_more fun c inside => bare.bytes c (mem_cons_of_mem _ inside)]
    rfl

theorem read_words {texts : List (List UInt8)} (bare : ∀ text ∈ texts, Bare text) {tokens : List Token} :
    (texts.flatMap fun text => text ++ [32]).foldl step ⟨.plain,tokens,.nothing⟩ =
      ⟨.plain,tokens ++ (texts.map plain).map Token.word,.nothing⟩ := by
  induction texts generalizing tokens with
  | nil => simp
  | cons text texts ih =>
    have blank : step ⟨.plain,tokens,.word (plain text)⟩ 32 = ⟨.plain,tokens ++ [.word (plain text)],.nothing⟩ := rfl
    rw [flatMap_cons,foldl_append,foldl_append,read_bare (bare text mem_cons_self),foldl_cons,blank,
      foldl_nil,ih fun other inside => bare other (mem_cons_of_mem _ inside)]
    simp

@[simp] theorem plain_text {text : List UInt8} : (plain text).text = text := by
  rw [plain,Word.text,map_map]
  exact map_id _

def texts (assignments : List (List UInt8 × List UInt8)) (argv : List (List UInt8)) : List (List UInt8) :=
  (assignments.map fun row => row.1 ++ 61 :: row.2) ++ argv

-- The words of a command that nothing on the host can change.
structure Settled (assignments : List (List UInt8 × List UInt8)) (argv : List (List UInt8)) : Prop where
  bare : ∀ text ∈ texts assignments argv, Bare text
  literal : ∀ text ∈ argv, tilded (plain text) = false ∧ patterned (plain text) = false
  values : ∀ row ∈ assignments, isName row.1 = true ∧ tildedValue (plain row.2) = false
  unreserved : ∀ text ∈ (texts assignments argv).head?, (plain text).reserved = false
  program : ∀ text ∈ argv.head?, (plain text).assigns = false

theorem plain_sign : ((fun mark : UInt8 × Bool => decide (mark ≠ (61,false))) ∘ fun b => (b,false)) = fun b => decide (b ≠ 61) := by
  funext b
  simp

theorem plain_name : (plain text).name = plain (text.takeWhile (· ≠ 61)) := by
  rw [Word.name,plain,takeWhile_map,plain_sign,plain]

theorem plain_value : (plain text).value = plain (text.dropWhile (· ≠ 61)).tail := by
  rw [value,plain,dropWhile_map,plain_sign,plain,map_tail]

theorem plain_assigns : (plain text).assigns = (decide (61 ∈ text) && isName (text.takeWhile (· ≠ 61))) := by
  have sign : (61,false) ∈ plain text ↔ 61 ∈ text := by simp [plain]
  have unquoted : (plain (text.takeWhile (· ≠ 61))).all (fun mark => !mark.2) = true := by simp [plain]
  rw [assigns,plain_name,unquoted,plain_text,Bool.and_true,decide_eq_decide.mpr sign]

theorem name_free (named : isName name = true) : 61 ∉ name := by
  intro inside
  unfold isName at named
  split at named
  · cases inside
  · rw [Bool.and_eq_true,all_eq_true] at named
    exact absurd (named.2 61 inside) (by decide)

theorem setting_assigns {row : List UInt8 × List UInt8} (named : isName row.1 = true) :
    (plain (row.1 ++ 61 :: row.2)).assigns = true ∧ (plain (row.1 ++ 61 :: row.2)).name.text = row.1 ∧
      (plain (row.1 ++ 61 :: row.2)).value = plain row.2 := by
  have free := name_free named
  rw [plain_assigns,plain_name,plain_value,Texts.takeWhile_sep free,Texts.dropWhile_sep free,named]
  simp

theorem simple_settled {assignments : List (List UInt8 × List UInt8)} {argv : List (List UInt8)}
    (settled : Settled assignments argv) {redirections : List Redirection} {background : Bool} :
    Simple.command ⟨(texts assignments argv).map plain,redirections,background⟩ = some ⟨assignments,argv,redirections,background⟩ := by
  have settings : ∀ word ∈ (assignments.map fun row => row.1 ++ 61 :: row.2).map plain, word.assigns = true := by
    intro word inside
    obtain ⟨text,listed,rfl⟩ := mem_map.mp inside
    obtain ⟨row,known,rfl⟩ := mem_map.mp listed
    exact (setting_assigns (settled.values row known).1).1
  have stops : (argv.map plain).takeWhile assigns = [] ∧ (argv.map plain).dropWhile assigns = argv.map plain := by
    cases argv with
    | nil => exact ⟨rfl,rfl⟩
    | cons text argv => simp [settled.program text rfl]
  have front : ((texts assignments argv).map plain).takeWhile assigns =
      (assignments.map fun row => row.1 ++ 61 :: row.2).map plain := by
    rw [texts,map_append,takeWhile_append_of_pos settings,stops.1,append_nil]
  have back : ((texts assignments argv).map plain).dropWhile assigns = argv.map plain := by
    rw [texts,map_append,dropWhile_append_of_pos settings,stops.2]
  have unreserved : (((texts assignments argv).map plain).head?.elim false reserved) = false := by
    rw [List.head?_map]
    cases first : (texts assignments argv).head? with
    | none => rfl
    | some text => exact settled.unreserved text first
  have values : ((assignments.map fun row => row.1 ++ 61 :: row.2).map plain).any (fun word => tildedValue word.value) = false := by
    rw [any_eq_false]
    intro word inside
    obtain ⟨text,listed,rfl⟩ := mem_map.mp inside
    obtain ⟨row,known,rfl⟩ := mem_map.mp listed
    obtain ⟨named,quiet⟩ := settled.values row known
    rw [(setting_assigns named).2.2,quiet]
    exact Bool.false_ne_true
  have words : (argv.map plain).any (fun word => tilded word || patterned word) = false := by
    rw [any_eq_false]
    intro word inside
    obtain ⟨text,listed,rfl⟩ := mem_map.mp inside
    obtain ⟨tilde,pattern⟩ := settled.literal text listed
    rw [tilde,pattern]
    exact Bool.false_ne_true
  have rows : ((assignments.map fun row => row.1 ++ 61 :: row.2).map plain).map (fun word => (word.name.text,word.value.text)) =
      assignments := by
    rw [map_map,map_map]
    conv_rhs => rw [← map_id assignments]
    refine map_congr_left fun row known => ?_
    obtain ⟨_,name,value⟩ := setting_assigns (settled.values row known).1
    simp only [Function.comp_apply,name,value,plain_text,id]
  have programs : (argv.map plain).map Word.text = argv := by simp [Function.comp_def]
  simp only [Simple.command,front,back,unreserved,values,words,Bool.or_false,Bool.false_eq_true,if_false,rows,programs]

theorem word_parts {word : Word} (sign : (61,false) ∈ word) : word.name.text ++ 61 :: word.value.text = word.text := by
  obtain ⟨left,right,rfl,free⟩ := eq_append_cons_of_mem sign
  rw [Word.name,Word.value,Texts.takeWhile_sep free,Texts.dropWhile_sep free]
  simp [Word.text]

theorem command_parts (found : command line = some c) : ∃ read simple,
    tokens line = some read ∧ parse read = some simple ∧ simple.command = some c := by
  obtain ⟨read,lexed,rest⟩ := Option.bind_eq_some_iff.mp found
  obtain ⟨simple,parsed,made⟩ := Option.bind_eq_some_iff.mp rest
  exact ⟨read,simple,lexed,parsed,made⟩

structure Tested (words : List Word) (c : Command) : Prop where
  unreserved : (words.head?.elim false reserved) = false
  values : ∀ word ∈ words.takeWhile assigns, tildedValue word.value = false
  literal : ∀ word ∈ words.dropWhile assigns, tilded word = false ∧ patterned word = false
  assignments : c.assignments = (words.takeWhile assigns).map fun word => (word.name.text,word.value.text)
  argv : c.argv = (words.dropWhile Word.assigns).map Word.text

theorem command_tested {simple : Simple} (made : simple.command = some c) : Tested simple.words c := by
  unfold Simple.command at made
  dsimp only at made
  split at made
  · cases made
  · rename_i passed
    rw [Bool.or_eq_true,Bool.or_eq_true,not_or,not_or] at passed
    obtain ⟨⟨unreserved,values⟩,literal⟩ := passed
    cases made
    refine ⟨Bool.not_eq_true _ ▸ unreserved,fun word inside => ?_,fun word inside => ?_,rfl,rfl⟩
    · have quiet := any_eq_false.mp (Bool.not_eq_true _ ▸ values) word inside
      exact Bool.not_eq_true _ ▸ quiet
    · have quiet := any_eq_false.mp (Bool.not_eq_true _ ▸ literal) word inside
      rw [Bool.or_eq_true,not_or] at quiet
      exact ⟨Bool.not_eq_true _ ▸ quiet.1,Bool.not_eq_true _ ▸ quiet.2⟩

theorem tested_texts {words : List Word} {c : Command} (tested : Tested words c) : texts c.assignments c.argv = words.map Word.text := by
  have settings : (words.takeWhile assigns).map (fun word => word.name.text ++ 61 :: word.value.text) =
      (words.takeWhile Word.assigns).map Word.text := by
    refine map_congr_left fun word inside => word_parts ?_
    have assigns := mem_takeWhile_imp inside
    rw [Word.assigns,Bool.and_eq_true,Bool.and_eq_true] at assigns
    exact of_decide_eq_true assigns.1.1
  rw [texts,tested.assignments,tested.argv,map_map]
  conv_rhs => rw [← takeWhile_append_dropWhile (p := assigns) (l := words),map_append]
  exact congrArg (· ++ _) settings

theorem tokens_flush {line : List UInt8} {read : List Token} (lexed : tokens line = some read) : read = (lex line).flush := by
  unfold tokens at lexed
  split at lexed
  · exact (Option.some.inj lexed).symm
  · exact (Option.some.inj lexed).symm
  · cases lexed

theorem words_quotes {line : List UInt8} {read : List Token} {simple : Simple} (lexed : tokens line = some read)
    (parsed : parse read = some simple) : (simple.words.map Word.text).flatten.countP isQuote ≤ (lex line).quotes := by
  have inside := ((parse_sublist parsed).map Token.bytes).flatten
  have held := flush_bytes (lex line)
  rw [flatMap_def] at held
  rw [map_map,tokens_flush lexed,held] at inside
  exact Nat.le_trans inside.countP_le (Nat.le_add_right _ _)

theorem settled_of_command {line : List UInt8} {c : Command} (found : command line = some c)
    (kept : line.countP isQuote ≤ (texts c.assignments c.argv).flatten.countP isQuote) : Settled c.assignments c.argv := by
  obtain ⟨read,simple,lexed,parsed,made⟩ := command_parts found
  have tested := command_tested made
  have same := tested_texts tested
  rw [same] at kept
  have bare := bare_fold (unquoted_of_kept (Nat.le_trans kept (words_quotes lexed parsed))) bare_initial
  have words : ∀ word ∈ simple.words, ∃ text, Bare text ∧ word = plain text := by
    intro word inside
    refine bare_flush bare word ?_
    have listed := (parse_sublist parsed).subset (mem_map_of_mem inside)
    rwa [tokens_flush lexed] at listed
  have front : ∀ word ∈ simple.words.takeWhile assigns, word ∈ simple.words := fun word inside =>
    (takeWhile_sublist _).subset inside
  have back : ∀ word ∈ simple.words.dropWhile assigns, word ∈ simple.words := fun word inside =>
    (dropWhile_sublist _).subset inside
  refine ⟨fun text inside => ?_,fun text inside => ?_,fun row inside => ?_,fun text first => ?_,fun text first => ?_⟩
  · rw [same] at inside
    obtain ⟨word,listed,rfl⟩ := mem_map.mp inside
    obtain ⟨text,known,rfl⟩ := words word listed
    rw [plain_text]
    exact known
  · rw [tested.argv] at inside
    obtain ⟨word,listed,rfl⟩ := mem_map.mp inside
    obtain ⟨text,_,rfl⟩ := words word (back word listed)
    rw [plain_text]
    exact tested.literal _ listed
  · rw [tested.assignments] at inside
    obtain ⟨word,listed,rfl⟩ := mem_map.mp inside
    have quiet := tested.values word listed
    have assigns := mem_takeWhile_imp listed
    obtain ⟨text,_,rfl⟩ := words word (front word listed)
    rw [plain_assigns,Bool.and_eq_true] at assigns
    rw [plain_value] at quiet
    rw [plain_name,plain_value,plain_text,plain_text]
    exact ⟨assigns.2,quiet⟩
  · rw [same,List.head?_map] at first
    obtain ⟨word,head,rfl⟩ := Option.map_eq_some_iff.mp first
    obtain ⟨text,_,rfl⟩ := words word (mem_of_head? head)
    have quiet := tested.unreserved
    rw [head] at quiet
    rw [plain_text]
    exact quiet
  · rw [tested.argv,List.head?_map] at first
    obtain ⟨word,head,rfl⟩ := Option.map_eq_some_iff.mp first
    obtain ⟨text,_,rfl⟩ := words word (back word (mem_of_head? head))
    rw [plain_text]
    have stopped := List.head?_dropWhile_not assigns simple.words
    rwa [head] at stopped

end Shell
