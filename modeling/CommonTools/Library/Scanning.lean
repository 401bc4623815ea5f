import CommonTools.Library.Texts
import CommonTools.Library.Numerals

namespace Scanning
open Numerals Texts
open List hiding after

def newline : UInt8 := 10

-- A line with its newline, or as much of it as fits.
def fgets (size : Nat) (bytes : List UInt8) : Option (List UInt8 × List UInt8) :=
  if bytes = [] then none
  else
    let head := bytes.take (size - 1)
    let line := if newline ∈ head then head.takeWhile (· ≠ newline) ++ [newline] else head
    some (line,bytes.drop line.length)

-- The conversions %s with a width and %ld.
def scanWord (width : Nat) (bytes : List UInt8) : Option (List UInt8 × List UInt8) :=
  let text := bytes.dropWhile isSpace
  let word := (text.takeWhile fun b => !isSpace b).take width
  if word = [] then none else some (word,text.drop word.length)

def toLong (value : Int) : Int := max (- 2 ^ 63) (min (2 ^ 63 - 1) value)

def scanLong (bytes : List UInt8) : Option (Int × List UInt8) :=
  let signed := readSign (bytes.dropWhile isSpace)
  let digits := signed.2.2.takeWhile isDigit
  let value : Int := if signed.1 then - (digitsValue digits : Int) else digitsValue digits
  if digits = [] then none else some (toLong value,signed.2.2.drop digits.length)

def decimalInt (value : Int) : List UInt8 := if value < 0 then 45 :: decimal value.natAbs else decimal value.toNat

theorem fgets_line (plain : newline ∉ text) (short : text.length + 1 < size)
    : fgets size (text ++ newline :: after) = some (text ++ [newline],after) := by
  have head : (text ++ newline :: after).take (size - 1) = text ++ newline :: after.take (size - 1 - text.length - 1) := by
    rw [take_append,take_of_length_le (by omega)]
    cases room : size - 1 - text.length with
    | zero => omega
    | succ n => simp
  have here : newline ∈ text ++ newline :: after.take (size - 1 - text.length - 1) := by simp
  rw [fgets,if_neg (by simp)]
  dsimp only
  rw [head,if_pos here,takeWhile_sep plain]
  have split : text ++ newline :: after = (text ++ [newline]) ++ after := by simp
  rw [split,drop_left]

theorem scanWord_word (sep : UInt8) (some : word ≠ [])
    (plain : ∀ b ∈ word, isSpace b = false) (short : word.length ≤ width) (space : isSpace sep = true)
    (after : List UInt8) : scanWord width (word ++ sep :: after) = .some (word,sep :: after) := by
  obtain ⟨b,rest,rfl⟩ := exists_cons_of_ne_nil some
  have first : isSpace b = false := plain b mem_cons_self
  have start : ((b :: rest) ++ sep :: after).dropWhile isSpace = (b :: rest) ++ sep :: after := by simp [first]
  have taken : ((b :: rest) ++ sep :: after).takeWhile (fun b => !isSpace b) = b :: rest := by
    rw [takeWhile_append_of_pos fun c inside => by simp [plain c inside]]
    simp [space]
  rw [scanWord,start,taken,take_of_length_le short,if_neg (by simp),drop_left]

theorem scanLong_decimal (small : n < 2 ^ 63) (sep : UInt8) (other : isDigit sep = false) (after : List UInt8) :
    scanLong (32 :: (decimal n ++ sep :: after)) = some ((n : Int),sep :: after) := by
  obtain ⟨b,rest,digits⟩ := exists_cons_of_ne_nil (decimal_ne n)
  have all : ∀ c ∈ decimal n, isDigit c = true := fun c inside => decimal_digits inside
  obtain ⟨space,minus,plus⟩ := digit_other (all b (digits ▸ mem_cons_self))
  have skipped : (32 :: (decimal n ++ sep :: after)).dropWhile isSpace = decimal n ++ sep :: after := by
    have blank : isSpace 32 = true := by decide
    rw [digits]
    simp [blank,space]
  have unsigned : readSign (decimal n ++ sep :: after) = (false,0,decimal n ++ sep :: after) := by
    rw [digits]
    exact readSign_none minus plus
  have taken : (decimal n ++ sep :: after).takeWhile isDigit = decimal n := by
    rw [takeWhile_append_of_pos all]
    simp [other]
  have kept : toLong (n : Int) = n := by
    unfold toLong
    omega
  rw [scanLong,skipped,unsigned]
  rw [taken,if_neg (decimal_ne n),drop_left,decimal_value,if_neg Bool.false_ne_true,kept]

-- The lines that std::getline gives one after the other; the first argument is what has
-- been read of the next one.
def byteLines (line : List UInt8) : List UInt8 → List (List UInt8)
  | [] => if line = [] then [] else [line]
  | b :: rest => if b = newline then line :: byteLines [] rest else byteLines (line ++ [b]) rest

theorem byteLines_line (free : newline ∉ text) : byteLines line (text ++ newline :: rest) = (line ++ text) :: byteLines [] rest := by
  induction text generalizing line with
  | nil => simp [byteLines]
  | cons b text ih =>
    have other : b ≠ newline := fun same => free (by simp [same])
    rw [cons_append,byteLines,if_neg other,ih fun inside => free (mem_cons_of_mem _ inside)]
    simp

theorem byteLines_last (free : newline ∉ text) : byteLines line text = if line ++ text = [] then [] else [line ++ text] := by
  induction text generalizing line with
  | nil => simp [byteLines]
  | cons b text ih =>
    have other : b ≠ newline := fun same => free (by simp [same])
    rw [byteLines,if_neg other,ih fun inside => free (mem_cons_of_mem _ inside)]
    simp

theorem byteLines_written (single : ∀ line ∈ lines, newline ∉ line) : byteLines [] (lines.flatMap (· ++ [newline])) = lines := by
  induction lines with
  | nil => rfl
  | cons line lines ih =>
    have rest := ih fun other inside => single other (mem_cons_of_mem _ inside)
    have parts : (line :: lines).flatMap (· ++ [newline]) = line ++ newline :: lines.flatMap (· ++ [newline]) := by simp
    rw [parts,byteLines_line (single line mem_cons_self),rest,nil_append]

theorem decimalInt_nat {n : Nat} : decimalInt n = decimal n := by
  rw [decimalInt,if_neg (by omega),Int.toNat_natCast]

theorem decimal_length (small : n < 2 ^ 31) : (decimal n).length ≤ 10 := by
  rw [decimal,length_map]
  exact Nat.toDigits_length 10 n 10 (by decide) (by omega)

end Scanning
