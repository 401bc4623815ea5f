import CommonTools.Library.Scanning
import CommonTools.Slurm.Texts

namespace CommonTools.Interface
open Numerals Texts Scanning FeDaemon Slurm List

inductive SymbolQuery where
  | any
  | all

def anySymbol (nmLine : Bytes) : Bytes :=
  let fields := splitString 3 (removeLeadingWhitespace nmLine) 32
  if fields.getD 2 [] = [] then fields.getD 1 [] else fields.getD 2 []

def containsAny (symbols : List Bytes) : List Bytes → Bool
  | [] => false
  | nmLine :: rest => if symbols.contains (anySymbol nmLine) then true else containsAny symbols rest

def allSymbol (nmLine : Bytes) : Bytes := (splitString 3 nmLine 32).getD 2 []

def containsAll (remainingSymbols : List Bytes) : List Bytes → Bool
  | [] => false
  | nmLine :: rest =>
    let remainingSymbols := remainingSymbols.filter (· ≠ allSymbol nmLine)
    if remainingSymbols = [] then true else containsAll remainingSymbols rest

-- What stat says of the binary, and what nm prints.
structure Binary where
  path : Bytes
  found : Bool
  executable : Bool
  nmOutput : Bytes

-- true is CTI_SYMBOLS_YES. The set of symbols is given by its members.
def containsSymbols (binary : Binary) (symbols : List Bytes) (query : SymbolQuery) : Except Bytes Bool :=
  if binary.found = false then .error (ascii "no file found at " ++ binary.path)
  else if binary.executable = false then .error (binary.path ++ ascii " is not executable")
  else
    match query with
    | .any => .ok (containsAny symbols (byteLines [] binary.nmOutput))
    | .all => .ok (containsAll symbols (byteLines [] binary.nmOutput))

structure SymbolName where
  text : Bytes
  some' : text ≠ []
  plain : ∀ b ∈ text, isSpace b = false

-- A line of nm. An undefined symbol has blanks in place of the address.
structure NmSymbol where
  address : Option SymbolName
  label : UInt8
  letter : isSpace label = false
  name : SymbolName

-- Addresses have 8 or 16 digits.
def NmSymbol.line (wide : Bool) (symbol : NmSymbol) : Bytes :=
  (match symbol.address with
    | some address => address.text
    | none => List.replicate (if wide then 16 else 8) 32) ++ 32 :: symbol.label :: 32 :: symbol.name.text

def nmText (wide : Bool) (listing : List NmSymbol) : Bytes := listing.flatMap fun symbol => symbol.line wide ++ [newline]

def Listed (listing : List NmSymbol) (name : Bytes) : Prop := ∃ symbol ∈ listing, symbol.name.text = name

def Defined (listing : List NmSymbol) (name : Bytes) : Prop :=
  ∃ symbol ∈ listing, symbol.address.isSome = true ∧ symbol.name.text = name

section Lines

theorem plain_other {text : Bytes} (plain : ∀ b ∈ text, isSpace b = false) : 32 ∉ text ∧ newline ∉ text := by
  constructor
  all_goals
    intro inside
    exact absurd (plain _ inside) (by decide)

theorem plain_blank (plain : isSpace b = false) : isBlank b = false := by
  cases blank : isBlank b with
  | false => rfl
  | true => exact absurd (isSpace_blank blank) (by simp [plain])

theorem trim_ends {indent text : Bytes} {first last : UInt8} (before : Blank indent) (head : text.head? = some first)
    (kept : isBlank first = false) (ends : text.getLast? = some last) (keptLast : isBlank last = false) :
    removeLeadingWhitespace (indent ++ text) = text := by
  obtain ⟨front,rfl⟩ := getLast?_eq_some_iff.mp ends
  obtain ⟨rest,parts⟩ := List.head?_eq_some_iff.mp head
  rw [removeLeadingWhitespace,dropWhile_blank before,parts,dropWhile_cons_of_neg (by simp [kept]),← parts]
  exact rdropWhile_kept keptLast front

theorem splitString_pair (free : 32 ∉ name) : splitString 2 name 32 = [name,[]] := by
  unfold splitString
  rw [splitFields,takeField_free free]
  rfl

theorem splitString_blanks (spaces : ∀ b ∈ blanks, isSpace b = true) (plain : isSpace label = false)
    : splitString 1 (32 :: (blanks ++ label :: 32 :: rest)) 32 = [[32,label]] := by
  have start : (blanks ++ label :: 32 :: rest).dropWhile isSpace = label :: 32 :: rest := by
    rw [dropWhile_append_of_pos spaces,dropWhile_cons_of_neg (by simp [plain])]
  have read : restWord (blanks ++ label :: 32 :: rest,true) = [label] := by
    have space : isSpace 32 = true := by decide
    rw [restWord,start]
    simp [plain,space]
  have field : takeField 32 (32 :: (blanks ++ label :: 32 :: rest),true) = ([],blanks ++ label :: 32 :: rest,true) :=
    takeField_sep not_mem_nil
  unfold splitString
  rw [splitFields,field]
  simp only [splitFields,read,appendWord]
  rfl

variable (wide : Bool) (symbol : NmSymbol)

theorem label_plain : ∀ b ∈ [symbol.label], isSpace b = false := by simp [symbol.letter]

theorem name_ends (name : SymbolName) (front : Bytes) : ∃ last, (front ++ 32 :: name.text).getLast? = some last ∧ isBlank last = false := by
  obtain ⟨start,last,parts⟩ := (eq_nil_or_concat' name.text).resolve_left name.some'
  refine ⟨last,?_,plain_blank (name.plain last (by simp [parts]))⟩
  have whole : front ++ 32 :: name.text = (front ++ 32 :: start) ++ [last] := by simp [parts]
  rw [whole,getLast?_concat]

theorem line_defined (given : symbol.address = some address) :
    symbol.line wide = address.text ++ 32 :: ([symbol.label] ++ 32 :: symbol.name.text) := by
  simp [NmSymbol.line,given]

theorem line_undefined (missing : symbol.address = none) : ∃ more : Nat,
    symbol.line wide = [] ++ 32 :: ([] ++ 32 :: (32 :: (List.replicate more 32 ++ symbol.label :: 32 :: symbol.name.text))) := by
  cases wide with
  | false => exact ⟨6,by simp [NmSymbol.line,missing]⟩
  | true => exact ⟨14,by simp [NmSymbol.line,missing]⟩

theorem line_newline : newline ∉ symbol.line wide := by
  have name := (plain_other symbol.name.plain).2
  have label := (plain_other (label_plain symbol)).2
  cases given : symbol.address with
  | some address =>
    have digits := (plain_other address.plain).2
    simp_all [NmSymbol.line,newline]
  | none => simp_all [NmSymbol.line,newline]

theorem anySymbol_line : anySymbol (symbol.line wide) = symbol.name.text := by
  have name := (plain_other symbol.name.plain).1
  have label := (plain_other (label_plain symbol)).1
  cases given : symbol.address with
  | some address =>
    obtain ⟨first,rest,parts⟩ := exists_cons_of_ne_nil address.some'
    obtain ⟨last,ends,keptLast⟩ := name_ends symbol.name (address.text ++ 32 :: [symbol.label])
    have kept := plain_blank (address.plain first (parts ▸ mem_cons_self))
    rw [append_assoc] at ends
    have head : (address.text ++ 32 :: ([symbol.label] ++ 32 :: symbol.name.text)).head? = some first := by
      rw [parts]
      rfl
    have trimmed := @trim_ends [] _ first last nofun head kept ends keptLast
    rw [nil_append] at trimmed
    rw [anySymbol,line_defined wide symbol given,trimmed,splitString_sep (plain_other address.plain).1,splitString_sep label,
      splitString_last name]
    simp [symbol.name.some']
  | none =>
    obtain ⟨more,whole⟩ := line_undefined wide symbol given
    obtain ⟨last,ends,keptLast⟩ := name_ends symbol.name [symbol.label]
    have before : Blank (List.replicate (more + 3) 32) := fun b inside => by rw [eq_of_mem_replicate inside]; rfl
    have trimmed := trim_ends before rfl (plain_blank symbol.letter) ends keptLast
    have parts : symbol.line wide = List.replicate (more + 3) 32 ++ ([symbol.label] ++ 32 :: symbol.name.text) := by
      rw [whole]
      rfl
    rw [anySymbol,parts,trimmed,splitString_sep label,splitString_pair name]
    rfl

theorem allSymbol_line : allSymbol (symbol.line wide) = if symbol.address.isSome then symbol.name.text else [32,symbol.label] := by
  have name := (plain_other symbol.name.plain).1
  have label := (plain_other (label_plain symbol)).1
  cases given : symbol.address with
  | some address =>
    rw [allSymbol,line_defined wide symbol given,splitString_sep (plain_other address.plain).1,splitString_sep label,
      splitString_last name]
    rfl
  | none =>
    obtain ⟨more,whole⟩ := line_undefined wide symbol given
    have blank : ∀ b ∈ List.replicate more (32 : UInt8), isSpace b = true := fun b inside => by
      rw [eq_of_mem_replicate inside]
      rfl
    rw [allSymbol,whole,splitString_sep not_mem_nil,splitString_sep not_mem_nil,splitString_blanks blank symbol.letter]
    rfl

theorem nmText_lines : byteLines [] (nmText wide listing) = listing.map (NmSymbol.line wide) := by
  induction listing with
  | nil => rfl
  | cons symbol listing ih =>
    have parts : nmText wide (symbol :: listing) = symbol.line wide ++ newline :: nmText wide listing := by simp [nmText]
    rw [parts,byteLines_line (line_newline wide symbol),ih]
    rfl

end Lines

section Answers
variable {wide : Bool} {listing : List NmSymbol}

theorem containsAny_iff : containsAny symbols lines = true ↔ ∃ line ∈ lines, anySymbol line ∈ symbols := by
  induction lines with
  | nil => simp [containsAny]
  | cons line lines ih =>
    rw [containsAny]
    by_cases here : anySymbol line ∈ symbols <;> simp [here,ih]

theorem containsAll_iff {remaining : List Bytes} (some' : remaining ≠ []) (lines : List Bytes) :
    containsAll remaining lines = true ↔ ∀ symbol ∈ remaining, ∃ line ∈ lines, allSymbol line = symbol := by
  induction lines generalizing remaining with
  | nil =>
    obtain ⟨symbol,rest,rfl⟩ := exists_cons_of_ne_nil some'
    refine ⟨nofun,fun all => ?_⟩
    obtain ⟨line,inside,_⟩ := all symbol mem_cons_self
    cases inside
  | cons line lines ih =>
    rw [containsAll]
    by_cases left : remaining.filter (· ≠ allSymbol line) = []
    · have same : ∀ symbol ∈ remaining, symbol = allSymbol line := by simpa using left
      simp only [left,if_true,true_iff]
      exact fun symbol inside => ⟨line,mem_cons_self,(same symbol inside).symm⟩
    · simp only [left,if_false]
      rw [ih left]
      constructor
      · intro rest symbol inside
        by_cases here : symbol = allSymbol line
        · exact ⟨line,mem_cons_self,here.symm⟩
        · obtain ⟨other,later,found⟩ := rest symbol (mem_filter.mpr ⟨inside,by simpa using here⟩)
          exact ⟨other,mem_cons_of_mem _ later,found⟩
      · intro all symbol inside
        obtain ⟨listed,other⟩ := mem_filter.mp inside
        obtain ⟨here,later,found⟩ := all symbol listed
        rcases mem_cons.mp later with rfl | later
        · exact absurd found.symm (by simpa using other)
        · exact ⟨here,later,found⟩

theorem any_listed (symbols : List Bytes) : containsAny symbols (byteLines [] (nmText wide listing)) = true ↔
    ∃ symbol ∈ symbols, Listed listing symbol := by
  rw [containsAny_iff,nmText_lines]
  constructor
  · rintro ⟨line,inside,asked⟩
    obtain ⟨symbol,listed,rfl⟩ := mem_map.mp inside
    rw [anySymbol_line] at asked
    exact ⟨symbol.name.text,asked,symbol,listed,rfl⟩
  · rintro ⟨name,asked,symbol,listed,rfl⟩
    exact ⟨symbol.line wide,mem_map_of_mem listed,by rw [anySymbol_line]; exact asked⟩

-- What is read of an undefined symbol has a blank in it.
theorem all_defined {name : SymbolName} : (∃ line ∈ byteLines [] (nmText wide listing), allSymbol line = name.text) ↔
    Defined listing name.text := by
  rw [nmText_lines]
  constructor
  · rintro ⟨line,inside,found⟩
    obtain ⟨symbol,listed,rfl⟩ := mem_map.mp inside
    rw [allSymbol_line] at found
    cases given : symbol.address.isSome with
    | true =>
      rw [given] at found
      exact ⟨symbol,listed,given,found⟩
    | false =>
      rw [given] at found
      have blank : 32 ∈ name.text := found ▸ mem_cons_self
      exact absurd blank (plain_other name.plain).1
  · rintro ⟨symbol,listed,given,same⟩
    refine ⟨symbol.line wide,mem_map_of_mem listed,?_⟩
    rw [allSymbol_line,given]
    exact same

end Answers

def listedBinary (path : Bytes) (wide : Bool) (listing : List NmSymbol) : Binary := ⟨path,true,true,nmText wide listing⟩

def putsName : SymbolName := ⟨ascii "puts",by decide +kernel,by decide +kernel⟩

def mainName : SymbolName := ⟨ascii "main",by decide +kernel,by decide +kernel⟩

def mainAddress : SymbolName := ⟨ascii "0000000000001139",by decide +kernel,by decide +kernel⟩

def hello : List NmSymbol := [⟨some mainAddress,84,by decide,mainName⟩,⟨none,85,by decide,putsName⟩]

end CommonTools.Interface
