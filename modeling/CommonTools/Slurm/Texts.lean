import Mathlib.Data.List.DropRight
import CommonTools.FeDaemon.Framing

namespace CommonTools.Slurm
open Numerals Texts FeDaemon
open List hiding count

section Splitting

def splitFields (delim : UInt8) : Nat → Bytes × Bool → List Bytes × Bytes × Bool
  | 0,stream => ([],stream)
  | count + 1,stream =>
    let (field,stream) := takeField delim stream
    let (fields,stream) := splitFields delim count stream
    (field :: fields,stream)

def restWord (stream : Bytes × Bool) : Bytes := if stream.2 then (stream.1.dropWhile isSpace).takeWhile (!isSpace ·) else []

def appendWord (delim : UInt8) (word : Bytes) : List Bytes → List Bytes
  | [] => []
  | [last] => [if word = [] then last else last ++ delim :: word]
  | field :: next :: rest => field :: appendWord delim word (next :: rest)

def splitString (count : Nat) (line : Bytes) (delim : UInt8) : List Bytes :=
  let (fields,stream) := splitFields delim count (line,true)
  appendWord delim (restWord stream) fields

variable {delim : UInt8} {name : Bytes}

theorem splitString_two (line : Bytes) : splitString 2 line delim = [(splitTwo line delim).1,(splitTwo line delim).2] := rfl

theorem splitString_sep (free : delim ∉ name) (rest : Bytes) (count : Nat) :
    splitString (count + 2) (name ++ delim :: rest) delim = name :: splitString (count + 1) rest delim := by
  unfold splitString
  rw [splitFields,takeField_sep free]
  rfl

theorem splitString_last (free : delim ∉ name) : splitString 1 name delim = [name] := by
  unfold splitString
  rw [splitFields,takeField_free free]
  rfl

theorem splitString_more (free : delim ∉ name) :
    ∃ more : Bytes, more.head? ∈ [none,some delim] ∧ splitString 1 (name ++ delim :: rest) delim = [name ++ more] := by
  unfold splitString
  rw [splitFields,takeField_sep free]
  by_cases word : restWord (rest,true) = []
  · exact ⟨[],by simp,by simp [splitFields,appendWord,word]⟩
  · exact ⟨delim :: restWord (rest,true),by simp,by simp [splitFields,appendWord,word]⟩

theorem splitTwo_free (free : delim ∉ name) (last : delim ∉ value) : splitTwo (name ++ delim :: value) delim = (name,value) := by
  have whole : Whole delim value := fun inside => absurd inside last
  exact Prod.ext (splitTwo_first free value) ((splitTwo_second free value).mpr whole)

def behind (delim : UInt8) : Nat → Bytes → Bytes
  | 0,text => text
  | count + 1,text => behind delim count (text.dropWhile (· ≠ delim)).tail

theorem splitString_single (line : Bytes) : ∃ field, splitString 1 line delim = [field] ∧ (field = line ↔ Whole delim line) := by
  have free : delim ∉ ([] : Bytes) := not_mem_nil
  have pair := (splitString_sep free line 0).symm.trans (splitString_two (delim :: line))
  exact ⟨(splitTwo (delim :: line) delim).2,(List.cons.inj pair).2,splitTwo_second free line⟩

theorem splitString_ne : splitString (count + 1) line delim ≠ [] := by
  unfold splitString splitFields
  dsimp only
  cases (splitFields delim count (takeField delim (line,true)).2).1 with
  | nil | cons next rest => exact cons_ne_nil _ _

-- With enough delimiters nothing is lost exactly if what is left after the last field is one word.
theorem splitString_joined (count : Nat) (line : Bytes) (delim : UInt8) (enough : count ≤ line.count delim) :
    [delim].intercalate (splitString (count + 1) line delim) = line ↔ Whole delim (behind delim count line) := by
  induction count generalizing line with
  | zero =>
    obtain ⟨field,single,whole⟩ := @splitString_single delim line
    rw [single,intercalate_singleton]
    exact whole
  | succ count ih =>
    have inside : delim ∈ line := count_pos_iff.mp (by omega)
    obtain ⟨name,rest,rfl,free⟩ := eq_append_cons_of_mem inside
    have fewer : count ≤ rest.count delim := by
      rw [count_append,count_eq_zero_of_not_mem free,count_cons_self] at enough
      omega
    have left : behind delim (count + 1) (name ++ delim :: rest) = behind delim count rest := by rw [behind,dropWhile_sep free,tail_cons]
    rw [splitString_sep free,intercalate_cons_of_ne_nil splitString_ne,left,← ih rest fewer]
    simp

theorem splitString_joined_setting : [61].intercalate (splitString 2 (ascii "LD_PRELOAD=a=b") 61) = ascii "LD_PRELOAD=a=b" ↔
      Whole 61 (behind 61 1 (ascii "LD_PRELOAD=a=b")) :=
  splitString_joined 1 (ascii "LD_PRELOAD=a=b") 61 (by decide)

theorem value_cut : splitString 2 (ascii "FLAGS=-Da=1 -O2") 61 = [ascii "FLAGS",ascii "-Da=1"] ∧
    splitString 2 (ascii "KEY=YQ=") 61 = [ascii "KEY",ascii "YQ"] ∧
    ¬ ∀ (count : Nat) (line : Bytes) (delim : UInt8), count ≤ line.count delim →
      [delim].intercalate (splitString (count + 1) line delim) = line := by
  have flags : splitString 2 (ascii "FLAGS=-Da=1 -O2") 61 = [ascii "FLAGS",ascii "-Da=1"] := by decide
  refine ⟨flags,by decide,fun joined => ?_⟩
  have whole := joined 1 (ascii "FLAGS=-Da=1 -O2") 61 (by decide)
  rw [flags] at whole
  exact absurd whole (by decide)

end Splitting

section Trimming

def isBlank (b : UInt8) : Bool := decide (b = 32 ∨ b = 9)

def Blank (text : Bytes) : Prop := ∀ b ∈ text, isBlank b = true

-- Both ends are trimmed, whatever the name says.
def removeLeadingWhitespace (text : Bytes) : Bytes := (text.dropWhile isBlank).rdropWhile isBlank

variable {indent text tail : Bytes}

theorem isSpace_blank (blank : isBlank b = true) : isSpace b = true := by
  simp only [isBlank,isSpace,decide_eq_true_eq] at blank ⊢
  rcases blank with rfl | rfl
  · exact .inl rfl
  · exact .inr (by decide)

theorem digit_not_blank (digit : isDigit b = true) : isBlank b = false := by
  cases blank : isBlank b with
  | false => rfl
  | true =>
    have space := (digit_other digit).1
    rw [isSpace_blank blank] at space
    cases space

theorem dropWhile_blank (blank : Blank indent) : (indent ++ text).dropWhile isBlank = text.dropWhile isBlank := by
  rw [dropWhile_append_of_pos blank]

theorem rdropWhile_blank (blank : Blank tail) : (text ++ tail).rdropWhile isBlank = text.rdropWhile isBlank := by
  rw [rdropWhile,reverse_append,dropWhile_append_of_pos (fun b inside => blank b (mem_reverse.mp inside))]
  rfl

theorem rdropWhile_kept {b : UInt8} (kept : isBlank b = false) (front : Bytes) : (front ++ [b]).rdropWhile isBlank = front ++ [b] := by
  rw [rdropWhile_concat_neg _ _ _ (by simp [kept])]

theorem rdropWhile_front (kept : isBlank b = false) (front tail : Bytes) :
    (front ++ b :: tail).rdropWhile isBlank = front ++ b :: tail.rdropWhile isBlank := by
  induction tail using reverseRecOn with
  | nil => exact rdropWhile_kept kept front
  | append_singleton tail last ih =>
    have parts : front ++ b :: (tail ++ [last]) = (front ++ b :: tail) ++ [last] := by simp
    rw [parts]
    by_cases blank : isBlank last = true
    · rw [rdropWhile_concat_pos _ _ _ blank,rdropWhile_concat_pos _ _ _ blank,ih]
    · rw [rdropWhile_concat_neg _ _ _ blank,rdropWhile_concat_neg _ _ _ blank,parts]

theorem trim_text (before : Blank indent) {first : UInt8} (kept : isBlank first = false) {last : UInt8}
    (keptLast : isBlank last = false) (middle : Bytes) (after : Blank tail) :
    removeLeadingWhitespace (indent ++ (first :: middle ++ [last]) ++ tail) = first :: middle ++ [last] := by
  rw [removeLeadingWhitespace,append_assoc,dropWhile_blank before,cons_append,cons_append,
    dropWhile_cons_of_neg (by simp [kept]),← cons_append,← cons_append,rdropWhile_blank after]
  exact rdropWhile_kept keptLast (first :: middle)

end Trimming

section Numbers

-- std::stoul: strtoul takes a sign, and gives the negative of a number modulo 2^64.
def stoul (text : Bytes) : Except String Nat :=
  let signed := readSign (text.dropWhile isSpace)
  let digits := signed.2.2.takeWhile isDigit
  let value := digitsValue digits
  if digits = [] then .error "stoul"
  else if 2 ^ 64 ≤ value then .error "stoul"
  else .ok (if signed.1 then (2 ^ 64 - value) % 2 ^ 64 else value)

variable {n : Nat} {blanks rest : Bytes}

theorem takeWhile_decimal (ends : ∀ b ∈ rest.head?, isDigit b = false) : (decimal n ++ rest).takeWhile isDigit = decimal n := by
  rw [takeWhile_append_of_pos fun b inside => decimal_digits inside]
  cases rest with
  | nil => simp
  | cons first rest => simp [ends first rfl]

-- A number begins with neither a blank nor a sign.
theorem decimal_begins (n : Nat) (rest : Bytes) : (decimal n ++ rest).takeWhile isSpace = [] ∧
    (decimal n ++ rest).dropWhile isSpace = decimal n ++ rest ∧ readSign (decimal n ++ rest) = (false,0,decimal n ++ rest) := by
  cases digits : decimal n with
  | nil => exact absurd digits (decimal_ne n)
  | cons first more =>
    obtain ⟨space,minus,plus⟩ := digit_other (decimal_digits (n := n) (digits ▸ mem_cons_self))
    simp [space,readSign_none minus plus]

theorem stoul_decimal (small : n < 2 ^ 64) (spaces : ∀ b ∈ blanks, isSpace b = true) (ends : ∀ b ∈ rest.head?, isDigit b = false) :
    stoul (blanks ++ (decimal n ++ rest)) = .ok n := by
  obtain ⟨_,back,sign⟩ := decimal_begins n rest
  unfold stoul
  simp only [dropWhile_append_of_pos spaces,back,sign,takeWhile_decimal ends,decimal_value]
  rw [if_neg (decimal_ne n),if_neg (by omega)]
  rfl

theorem stoi_rest (n : Nat) (ends : ∀ b ∈ rest.head?, isDigit b = false) :
    stoi (decimal n ++ rest) = if n < 2 ^ 31 then .ok ((n : Int),(decimal n).length) else .error "stoi" := by
  obtain ⟨front,back,sign⟩ := decimal_begins n rest
  unfold stoi
  simp only [front,back,sign,takeWhile_decimal ends,decimal_value,Bool.false_eq_true,if_false]
  by_cases small : n < 2 ^ 31
  · rw [if_pos small,if_neg (decimal_ne n),if_neg (by omega),length_nil,Nat.zero_add]
  · rw [if_neg small,if_neg (decimal_ne n),if_pos (by omega)]

theorem stoul_number (small : n < 2 ^ 64) : stoul (decimal n) = .ok n := by
  simpa using @stoul_decimal n [] [] small (by simp) (by simp)

end Numbers

end CommonTools.Slurm
