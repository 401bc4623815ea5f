import CommonTools.Library.Numerals

-- How a POSIX shell takes a command line apart, as far as the line itself decides it:
-- what depends on the variables, the users or the files of the host has no value here.
namespace Shell
open Numerals List

inductive Kind where
  | backslash
  | single
  | double
  | expansion
  | operator
  | blank
  | ordinary
  deriving DecidableEq

-- \ ' " then $ and the backquote, the bytes of operators with the newline, and blanks.
def kind (b : UInt8) : Kind :=
  if b = 92 then .backslash
  else if b = 39 then .single
  else if b = 34 then .double
  else if b = 36 ∨ b = 96 then .expansion
  else if b ∈ [124,38,59,60,62,40,41,10] then .operator
  else if b = 32 ∨ b = 9 then .blank
  else .ordinary

def isQuote (b : UInt8) : Bool := decide (b = 92 ∨ b = 39 ∨ b = 34)

-- A byte of a word, and whether it was quoted.
abbrev Word := List (UInt8 × Bool)

def Word.text (word : Word) : List UInt8 := word.map Prod.fst

def plain (text : List UInt8) : Word := text.map fun b => (b,false)

inductive Token where
  | word (word : Word)
  | number (word : Word)
  | operator (text : List UInt8)
  deriving DecidableEq

inductive Mode where
  | plain
  | escape
  | single
  | double
  | doubleEscape
  | comment
  | expansion
  deriving DecidableEq

inductive Part where
  | nothing
  | word (word : Word)
  | operator (text : List UInt8)
  deriving DecidableEq

structure Lexer where
  mode : Mode
  tokens : List Token
  part : Part
  deriving DecidableEq

def Lexer.initial : Lexer := ⟨.plain,[],.nothing⟩

def Lexer.flush (lexer : Lexer) : List Token :=
  match lexer.part with
  | .nothing => lexer.tokens
  | .word word => lexer.tokens ++ [.word word]
  | .operator text => lexer.tokens ++ [.operator text]

def Lexer.push (lexer : Lexer) (mode : Mode) (marks : Word) : Lexer :=
  match lexer.part with
  | .word word => ⟨mode,lexer.tokens,.word (word ++ marks)⟩
  | _ => ⟨mode,lexer.flush,.word marks⟩

def operators : List (List UInt8) :=
  [[38,38],[124,124],[59,59],[60,60],[62,62],[60,38],[62,38],[60,62],[62,124],[60,60,45]]

def digits (word : Word) : Bool := decide (word ≠ []) && word.all fun mark => isDigit mark.1 && !mark.2

-- An operator grows as long as it can. A word of digits right before < or > says which
-- file descriptor is meant.
def Lexer.operate (lexer : Lexer) (b : UInt8) : Lexer :=
  match lexer.part with
  | .operator text =>
    if operators.contains (text ++ [b]) then ⟨.plain,lexer.tokens,.operator (text ++ [b])⟩ else ⟨.plain,lexer.flush,.operator [b]⟩
  | .word word =>
    if (b = 60 ∨ b = 62) ∧ digits word = true then ⟨.plain,lexer.tokens ++ [.number word],.operator [b]⟩
    else ⟨.plain,lexer.flush,.operator [b]⟩
  | .nothing => ⟨.plain,lexer.tokens,.operator [b]⟩

-- A # starts a comment where no word is being read.
def Lexer.take (lexer : Lexer) (b : UInt8) : Lexer :=
  match lexer.part with
  | .word word => ⟨.plain,lexer.tokens,.word (word ++ [(b,false)])⟩
  | _ => if b = 35 then ⟨.comment,lexer.flush,.nothing⟩ else ⟨.plain,lexer.flush,.word [(b,false)]⟩

def Lexer.step (lexer : Lexer) (b : UInt8) : Lexer :=
  match lexer.mode with
  | .plain =>
    match kind b with
    | .backslash => ⟨.escape,lexer.tokens,lexer.part⟩
    | .single => lexer.push .single []
    | .double => lexer.push .double []
    | .expansion => ⟨.expansion,lexer.tokens,lexer.part⟩
    | .operator => lexer.operate b
    | .blank => ⟨.plain,lexer.flush,.nothing⟩
    | .ordinary => lexer.take b
  | .escape => if b = 10 then ⟨.plain,lexer.tokens,lexer.part⟩ else lexer.push .plain [(b,true)]
  | .single => if b = 39 then ⟨.plain,lexer.tokens,lexer.part⟩ else lexer.push .single [(b,true)]
  | .double =>
    match kind b with
    | .double => ⟨.plain,lexer.tokens,lexer.part⟩
    | .backslash => ⟨.doubleEscape,lexer.tokens,lexer.part⟩
    | .expansion => ⟨.expansion,lexer.tokens,lexer.part⟩
    | _ => lexer.push .double [(b,true)]
  | .doubleEscape =>
    if kind b = .double ∨ kind b = .backslash ∨ kind b = .expansion then lexer.push .double [(b,true)]
    else if b = 10 then ⟨.double,lexer.tokens,lexer.part⟩
    else lexer.push .double [(92,true),(b,true)]
  | .comment => if b = 10 then ⟨.plain,lexer.flush,.operator [10]⟩ else lexer
  | .expansion => lexer

def lex (line : List UInt8) : Lexer := line.foldl Lexer.step .initial

-- A quotation has to be closed, and an expansion is not decided here.
def tokens (line : List UInt8) : Option (List Token) :=
  match (lex line).mode with
  | .plain | .comment => some (lex line).flush
  | _ => none

structure Redirection where
  number : Option (List UInt8)
  operator : List UInt8
  target : List UInt8
  deriving DecidableEq

structure Simple where
  words : List Word
  redirections : List Redirection
  background : Bool
  deriving DecidableEq

def redirecting (operator : List UInt8) : Bool :=
  [[60],[62],[60,60],[62,62],[60,38],[62,38],[60,62],[62,124],[60,60,45]].contains operator

-- One simple command, in the background where & ends it.
def parse : List Token → Option Simple
  | [] => some ⟨[],[],false⟩
  | .word word :: rest => (parse rest).map fun simple => ⟨word :: simple.words,simple.redirections,simple.background⟩
  | .number number :: .operator operator :: .word target :: rest =>
    if redirecting operator then (parse rest).map fun simple =>
      ⟨simple.words,⟨some number.text,operator,target.text⟩ :: simple.redirections,simple.background⟩
    else none
  | .operator operator :: .word target :: rest =>
    if redirecting operator then (parse rest).map fun simple =>
      ⟨simple.words,⟨none,operator,target.text⟩ :: simple.redirections,simple.background⟩
    else none
  | [.operator operator] => if operator = [38] then some ⟨[],[],true⟩ else none
  | _ => none

def isNameByte (b : UInt8) : Bool := isAlnum b || decide (b = 95)

def isName (text : List UInt8) : Bool :=
  match text with
  | [] => false
  | b :: _ => !isDigit b && text.all isNameByte

-- name=value, with an unquoted name and an unquoted sign.
def Word.name (word : Word) : Word := word.takeWhile fun mark => decide (mark ≠ (61,false))

def Word.value (word : Word) : Word := (word.dropWhile fun mark => decide (mark ≠ (61,false))).tail

def Word.assigns (word : Word) : Bool :=
  decide ((61,false) ∈ word) && word.name.all (fun mark => !mark.2) && isName word.name.text

-- The reserved words, those that some shells reserve, and a name with a colon.
def reservedWords : List (List UInt8) :=
  ["!","\x7b","\x7d","case","do","done","elif","else","esac","fi","for","if","in","then","until","while","[[","]]","function",
    "namespace","select","time"].map fun word => word.toList.map fun c => UInt8.ofNat c.toNat

def Word.reserved (word : Word) : Bool :=
  word.all (fun mark => !mark.2) &&
    (reservedWords.contains word.text || decide (word.text.getLast? = some 58) && isName word.text.dropLast)

def closes : Word → Bool
  | [] => false
  | (b,quoted) :: rest => decide (b ≠ 47) && (decide (b = 93 ∧ quoted = false) || closes rest)

def brackets : Word → Bool
  | (33,false) :: (b,_) :: rest => decide (b ≠ 47) && closes rest
  | (b,_) :: rest => decide (b ≠ 47) && closes rest
  | [] => false

def patterned : Word → Bool
  | [] => false
  | (b,quoted) :: rest => (!quoted && (decide (b = 42 ∨ b = 63) || decide (b = 91) && brackets rest)) || patterned rest

def tilded (word : Word) : Bool := decide (word.head? = some (126,false))

def tildedValue : Word → Bool
  | [] => false
  | (126,false) :: _ => true
  | mark :: rest => laterTilde (mark :: rest)
where
  laterTilde : Word → Bool
  | (58,false) :: (126,false) :: _ => true
  | _ :: rest => laterTilde rest
  | [] => false

structure Command where
  assignments : List (List UInt8 × List UInt8)
  argv : List (List UInt8)
  redirections : List Redirection
  background : Bool
  deriving DecidableEq

def Simple.command (simple : Simple) : Option Command :=
  let assignments := simple.words.takeWhile Word.assigns
  let words := simple.words.dropWhile Word.assigns
  if (simple.words.head?.elim false Word.reserved) || assignments.any (fun word => tildedValue word.value) ||
      words.any (fun word => tilded word || patterned word) then none
  else some ⟨assignments.map fun word => (word.name.text,word.value.text),words.map Word.text,simple.redirections,
    simple.background⟩

def command (line : List UInt8) : Option Command := do
  let tokens ← tokens line
  let simple ← parse tokens
  simple.command

def Token.bytes : Token → List UInt8
  | .word marks => marks.text
  | .number marks => marks.text
  | .operator _ => []

def Part.bytes : Part → List UInt8
  | .nothing => []
  | .word marks => marks.text
  | .operator _ => []

def Lexer.bytes (lexer : Lexer) : List UInt8 := lexer.tokens.flatMap Token.bytes ++ lexer.part.bytes

-- The quoting bytes that are part of words, with a backslash that may become one.
def Lexer.quotes (lexer : Lexer) : Nat :=
  lexer.bytes.countP isQuote + if lexer.mode = .doubleEscape then 1 else 0

theorem flush_bytes (lexer : Lexer) : lexer.flush.flatMap Token.bytes = lexer.bytes := by
  unfold Lexer.flush Lexer.bytes
  cases lexer.part <;> simp [Part.bytes,Token.bytes]

theorem push_bytes {lexer : Lexer} : (lexer.push mode marks).bytes = lexer.bytes ++ marks.text := by
  unfold Lexer.push
  split
  · rename_i word same
    simp [Lexer.bytes,same,Part.bytes,Word.text]
  · have flushed := flush_bytes lexer
    simp [Lexer.bytes,Part.bytes,flushed]

theorem operate_bytes {lexer : Lexer} : (lexer.operate b).bytes = lexer.bytes := by
  have flushed := flush_bytes lexer
  unfold Lexer.operate
  split
  · rename_i text same
    split
    · simp [Lexer.bytes,same,Part.bytes]
    · simp [Lexer.bytes,Part.bytes,flushed]
  · rename_i word same
    split
    · simp [Lexer.bytes,same,Part.bytes,Token.bytes]
    · simp [Lexer.bytes,Part.bytes,flushed]
  · rename_i same
    simp [Lexer.bytes,same,Part.bytes]

theorem take_bytes (lexer : Lexer) (b : UInt8) : (lexer.take b).bytes = lexer.bytes ++ [b] ∨ (lexer.take b).bytes = lexer.bytes := by
  have flushed := flush_bytes lexer
  unfold Lexer.take
  split
  · rename_i word same
    exact .inl (by simp [Lexer.bytes,same,Part.bytes,Word.text])
  · split
    · exact .inr (by simp [Lexer.bytes,Part.bytes,flushed])
    · exact .inl (by simp [Lexer.bytes,Part.bytes,Word.text,flushed])

@[simp] theorem push_mode {lexer : Lexer} {mode : Mode} {marks : Word} : (lexer.push mode marks).mode = mode := by
  unfold Lexer.push
  split <;> rfl

@[simp] theorem operate_mode {lexer : Lexer} {b : UInt8} : (lexer.operate b).mode = .plain := by
  unfold Lexer.operate
  split
  · split <;> rfl
  · split <;> rfl
  · rfl

theorem take_mode (lexer : Lexer) (b : UInt8) : (lexer.take b).mode = .plain ∨ (lexer.take b).mode = .comment := by
  unfold Lexer.take
  split
  · exact .inl rfl
  · split
    · exact .inr rfl
    · exact .inl rfl

theorem kind_quote : isQuote b = true ↔ kind b = .backslash ∨ kind b = .single ∨ kind b = .double := by
  unfold isQuote kind
  by_cases one : b = 92
  · simp [one]
  by_cases two : b = 39
  · simp [two]
  by_cases three : b = 34
  · simp [three]
  simp only [one,two,three,if_false]
  split
  · simp
  · split
    · simp
    · split <;> simp

-- What one byte adds to the words. A backslash in a quotation comes late.
theorem step_bytes {lexer : Lexer} :
    (lexer.step b).bytes = lexer.bytes ∨ (lexer.step b).bytes = lexer.bytes ++ [b] ∧ (lexer.step b).mode ≠ .doubleEscape ∨
      (lexer.step b).bytes = lexer.bytes ++ [92,b] ∧ lexer.mode = .doubleEscape ∧ (lexer.step b).mode ≠ .doubleEscape := by
  have flushed : ∀ mode part, part.bytes = [] → (Lexer.mk mode lexer.flush part).bytes = lexer.bytes := by
    intro mode part empty
    rw [Lexer.bytes,empty,append_nil,flush_bytes]
  have pushed : ∀ mode, (lexer.push mode [(b,true)]).bytes = lexer.bytes ++ [b] := fun mode => push_bytes
  obtain ⟨mode,tokens,part⟩ := lexer
  cases mode with
  | plain =>
    rw [Lexer.step]
    cases kind b with
    | backslash => exact .inl rfl
    | single | double => exact .inl (push_bytes.trans (append_nil _))
    | expansion => exact .inl rfl
    | operator => exact .inl operate_bytes
    | blank => exact .inl (flushed _ .nothing rfl)
    | ordinary =>
      rcases take_bytes ⟨.plain,tokens,part⟩ b with added | same
      · refine .inr (.inl ⟨added,?_⟩)
        rcases take_mode ⟨.plain,tokens,part⟩ b with mode | mode <;> simp [mode]
      · exact .inl same
  | escape | single =>
    rw [Lexer.step]
    dsimp only
    split
    · exact .inl rfl
    · exact .inr (.inl ⟨pushed _,by simp⟩)
  | double =>
    rw [Lexer.step]
    cases kind b with
    | double | backslash | expansion => exact .inl rfl
    | _ => exact .inr (.inl ⟨pushed _,by simp⟩)
  | doubleEscape =>
    rw [Lexer.step]
    dsimp only
    split
    · exact .inr (.inl ⟨pushed _,by simp⟩)
    · split
      · exact .inl rfl
      · exact .inr (.inr ⟨push_bytes,rfl,by simp⟩)
  | comment =>
    rw [Lexer.step]
    dsimp only
    split
    · exact .inl (flushed _ _ rfl)
    · exact .inl rfl
  | expansion => exact .inl rfl

theorem step_doubleEscape {lexer : Lexer} (late : (lexer.step b).mode = .doubleEscape) : isQuote b = true := by
  rw [kind_quote]
  obtain ⟨mode,tokens,part⟩ := lexer
  cases mode with
  | plain =>
    rw [Lexer.step] at late
    cases found : kind b with
    | backslash => exact .inl rfl
    | single => exact .inr (.inl rfl)
    | double => exact .inr (.inr rfl)
    | expansion => rw [found] at late; cases late
    | operator => rw [found] at late; simp at late
    | blank => rw [found] at late; cases late
    | ordinary =>
      rw [found] at late
      rcases take_mode ⟨.plain,tokens,part⟩ b with mode | mode <;> simp [mode] at late
  | double =>
    rw [Lexer.step] at late
    cases found : kind b with
    | backslash => exact .inl rfl
    | double => exact .inr (.inr rfl)
    | expansion => rw [found] at late; cases late
    | _ => rw [found] at late; simp at late
  | escape | single => rw [Lexer.step] at late; dsimp only at late; split at late <;> simp at late
  | doubleEscape => rw [Lexer.step] at late; dsimp only at late; split at late <;> [simp at late; (split at late <;> simp at late)]
  | comment => rw [Lexer.step] at late; dsimp only at late; split at late <;> simp at late
  | expansion => cases late

theorem step_quotes (lexer : Lexer) (b : UInt8) : (lexer.step b).quotes ≤ lexer.quotes + if isQuote b then 1 else 0 := by
  unfold Lexer.quotes
  rcases step_bytes with same | ⟨added,early⟩ | ⟨added,late,early⟩
  · rw [same]
    by_cases late : (lexer.step b).mode = .doubleEscape
    · simp only [late,step_doubleEscape late,if_true]
      omega
    · simp only [late,if_false]
      omega
  · simp only [added,early,if_false,countP_append,countP_singleton]
    split <;> omega
  · have backslash : isQuote 92 = true := by decide
    simp only [added,early,late,if_true,if_false,countP_append,countP_cons,countP_nil,backslash]
    split <;> omega

theorem first_quote (lexer : Lexer) (b : UInt8) (quote : isQuote b = true)
    (mode : lexer.mode = .plain ∨ lexer.mode = .comment ∨ lexer.mode = .expansion) : (lexer.step b).quotes = lexer.quotes := by
  have unfed : ∀ mode, mode ≠ .doubleEscape → (lexer.push mode []).quotes = lexer.bytes.countP isQuote := by
    intro mode other
    rw [Lexer.quotes,push_bytes,push_mode,if_neg other,Word.text,map_nil,append_nil,Nat.add_zero]
  have held : lexer.quotes = lexer.bytes.countP isQuote := by rcases mode with mode | mode | mode <;> simp [Lexer.quotes,mode]
  rw [held]
  rcases mode with mode | mode | mode
  · unfold Lexer.step
    rw [mode]
    dsimp only
    rcases kind_quote.mp quote with found | found | found
    · rw [found]
      rfl
    · rw [found]
      exact unfed _ (by decide)
    · rw [found]
      exact unfed _ (by decide)
  · have other : b ≠ 10 := by
      rintro rfl
      exact absurd quote (by decide)
    unfold Lexer.step
    rw [mode]
    dsimp only
    rw [if_neg other,held]
  · unfold Lexer.step
    rw [mode]
    exact held

theorem fold_quotes (line : List UInt8) (lexer : Lexer) : (line.foldl Lexer.step lexer).quotes ≤ lexer.quotes + line.countP isQuote := by
  induction line generalizing lexer with
  | nil => exact Nat.le_refl _
  | cons b line ih =>
    have step := step_quotes lexer b
    have rest := ih (lexer.step b)
    rw [foldl_cons,countP_cons]
    omega

-- A word that stands for itself as far as its bytes go.
structure Bare (text : List UInt8) : Prop where
  nonempty : text ≠ []
  start : text.head? ≠ some 35
  bytes : ∀ b ∈ text, kind b = .ordinary

def BareWord (word : Word) : Prop := ∃ text, Bare text ∧ word = plain text

def Part.Bare : Part → Prop
  | .word marks => BareWord marks
  | _ => True

structure Lexer.Bare (lexer : Lexer) : Prop where
  mode : lexer.mode = .plain ∨ lexer.mode = .comment ∨ lexer.mode = .expansion
  tokens : ∀ word, Token.word word ∈ lexer.tokens → BareWord word
  part : lexer.part.Bare

section
variable {lexer : Lexer} (bare : lexer.Bare)
include bare

theorem bare_flush : ∀ word, Token.word word ∈ lexer.flush → BareWord word := by
  intro word inside
  unfold Lexer.flush at inside
  cases part : lexer.part with
  | nothing =>
    rw [part] at inside
    exact bare.tokens word inside
  | operator text =>
    rw [part] at inside
    rcases mem_append.mp inside with inside | last
    · exact bare.tokens word inside
    · cases mem_singleton.mp last
  | word marks =>
    have own := bare.part
    rw [part] at inside own
    rcases mem_append.mp inside with inside | last
    · exact bare.tokens word inside
    · cases mem_singleton.mp last
      exact own

theorem bare_operate : (lexer.operate b).Bare := by
  have flushed := bare_flush bare
  refine ⟨.inl operate_mode,?_,?_⟩
  · intro word inside
    unfold Lexer.operate at inside
    split at inside
    · split at inside
      · exact bare.tokens word inside
      · exact flushed word inside
    · split at inside
      · rcases mem_append.mp inside with inside | last
        · exact bare.tokens word inside
        · cases mem_singleton.mp last
      · exact flushed word inside
    · exact bare.tokens word inside
  · unfold Lexer.operate
    split
    · split <;> exact trivial
    · split <;> exact trivial
    · exact trivial

theorem bare_take (ordinary : kind b = .ordinary) : (lexer.take b).Bare := by
  have flushed := bare_flush bare
  unfold Lexer.take
  split
  · rename_i word same
    have own := bare.part
    rw [same] at own
    obtain ⟨text,known,rfl⟩ := own
    refine ⟨.inl rfl,bare.tokens,text ++ [b],⟨by simp,?_,?_⟩,by simp [plain]⟩
    · rw [List.head?_append_of_ne_nil _ known.nonempty]
      exact known.start
    · intro c inside
      rcases mem_append.mp inside with inside | last
      · exact known.bytes c inside
      · rw [mem_singleton.mp last]
        exact ordinary
  · split
    · exact ⟨.inr (.inl rfl),flushed,trivial⟩
    · rename_i other
      refine ⟨.inl rfl,flushed,[b],⟨cons_ne_nil _ _,?_,?_⟩,rfl⟩
      · simpa using other
      · intro c inside
        rw [mem_singleton.mp inside]
        exact ordinary

theorem bare_step (unquoted : isQuote b = false) : (lexer.step b).Bare := by
  unfold Lexer.step
  rcases bare.mode with mode | mode | mode
  · rw [mode]
    cases found : kind b with
    | backslash => rw [kind_quote.mpr (.inl found)] at unquoted; cases unquoted
    | single => rw [kind_quote.mpr (.inr (.inl found))] at unquoted; cases unquoted
    | double => rw [kind_quote.mpr (.inr (.inr found))] at unquoted; cases unquoted
    | expansion => exact ⟨.inr (.inr rfl),bare.tokens,bare.part⟩
    | operator => exact bare_operate bare
    | blank => exact ⟨.inl rfl,bare_flush bare,trivial⟩
    | ordinary => exact bare_take bare found
  · rw [mode]
    dsimp only
    split
    · exact ⟨.inl rfl,bare_flush bare,trivial⟩
    · exact bare
  · rw [mode]
    exact bare

end

theorem bare_initial : Lexer.initial.Bare := ⟨.inl rfl,fun _ inside => absurd inside not_mem_nil,trivial⟩

theorem bare_fold {line : List UInt8} (unquoted : ∀ b ∈ line, isQuote b = false) {lexer : Lexer} (bare : lexer.Bare) :
    (line.foldl Lexer.step lexer).Bare := by
  induction line generalizing lexer with
  | nil => exact bare
  | cons b line ih => exact ih (fun c inside => unquoted c (mem_cons_of_mem _ inside)) (bare_step bare (unquoted b mem_cons_self))

theorem unquoted_of_kept {line : List UInt8} (kept : line.countP isQuote ≤ (lex line).quotes) : ∀ b ∈ line, isQuote b = false := by
  intro b inside
  by_contra quote
  obtain ⟨q,found⟩ := Option.isSome_iff_exists.mp (List.find?_isSome.mpr ⟨b,inside,Bool.not_eq_false _ ▸ quote⟩)
  obtain ⟨quoting,before,after,split,earlier⟩ := List.find?_eq_some_iff_append.mp found
  have plain : ∀ c ∈ before, isQuote c = false := fun c listed => by simpa using earlier c listed
  have bare := bare_fold plain bare_initial
  have front := fold_quotes before .initial
  have here := first_quote (before.foldl Lexer.step .initial) q quoting bare.mode
  have rest := fold_quotes after ((before.foldl Lexer.step .initial).step q)
  have start : Lexer.initial.quotes = 0 := rfl
  rw [split,lex,foldl_append,foldl_cons,countP_append,countP_cons,quoting] at kept
  simp only [if_true] at kept
  omega

end Shell
