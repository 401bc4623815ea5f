import Mathlib.Data.List.Basic
import Mathlib.Data.List.TakeWhile
import Mathlib.Data.Nat.Digits.Defs
import Mathlib.Data.BitVec

namespace Numerals
open List

def little : Nat → Nat → List UInt8
  | 0,_ => []
  | width + 1,n => UInt8.ofNat (n % 256) :: little width (n / 256)

def unlittle : List UInt8 → Nat
  | [] => 0
  | b :: rest => b.toNat + 256 * unlittle rest

theorem little_length (width n : Nat) : (little width n).length = width := by
  induction width generalizing n with
  | zero => rfl
  | succ width ih => rw [little,length_cons,ih]

theorem unlittle_little : unlittle (little width n) = n % 256 ^ width := by
  induction width generalizing n with
  | zero => rw [Nat.pow_zero,Nat.mod_one]; rfl
  | succ width ih =>
    have low : (UInt8.ofNat (n % 256)).toNat = n % 256 := UInt8.toNat_ofNat_of_lt' (Nat.mod_lt n (by decide))
    rw [little,unlittle,ih,low,Nat.pow_succ',Nat.mod_mul]

theorem word_little (size : 2 ^ bits = 256 ^ width) : BitVec.ofNat bits (unlittle (little width x.toNat)) = x := by
  rw [unlittle_little,← size,Nat.mod_eq_of_lt x.isLt,BitVec.ofNat_toNat,BitVec.setWidth_eq]

-- What a counter of so many bits has given out after so many steps.
def counted (bits n : Nat) : List (BitVec bits) := (List.range n).map fun k => BitVec.ofNat bits (k + 1)

theorem counted_succ : counted bits (n + 1) = counted bits n ++ [BitVec.ofNat bits (n + 1)] := by
  simp [counted,range_succ]

theorem mem_counted : word ∈ counted bits n ↔ ∃ k, k < n ∧ BitVec.ofNat bits (k + 1) = word := by
  simp [counted]

theorem counted_nodup (few : n < 2 ^ bits) : (counted bits n).Nodup := by
  refine List.Nodup.map_on ?_ nodup_range
  intro one inside two inside' same
  have first := mem_range.mp inside
  have second := mem_range.mp inside'
  have equal := congrArg BitVec.toNat same
  rw [BitVec.toNat_ofNat,BitVec.toNat_ofNat,Nat.mod_eq_of_lt (by omega),Nat.mod_eq_of_lt (by omega)] at equal
  omega

def isSpace (b : UInt8) : Bool := decide (b = 32 ∨ 9 ≤ b ∧ b ≤ 13)

def isDigit (b : UInt8) : Bool := decide (48 ≤ b ∧ b ≤ 57)

def isAlnum (b : UInt8) : Bool := isDigit b || decide (65 ≤ b ∧ b ≤ 90) || decide (97 ≤ b ∧ b ≤ 122)

def decimal (n : Nat) : List UInt8 := (Nat.toDigits 10 n).map fun c => UInt8.ofNat c.toNat

def digitsValue (digits : List UInt8) : Nat := digits.foldl (fun value b => 10 * value + (b.toNat - 48)) 0

theorem toDigits_range (inside : c ∈ Nat.toDigits 10 n) : 48 ≤ c.toNat ∧ c.toNat ≤ 57 := by
  have digit := Nat.isDigit_of_mem_toDigits (by omega) (by omega) inside
  rwa [Char.isDigit,Bool.and_eq_true,decide_eq_true_iff,decide_eq_true_iff] at digit

theorem digit_byte (inside : c ∈ Nat.toDigits 10 n) : (UInt8.ofNat c.toNat).toNat = c.toNat :=
  UInt8.toNat_ofNat_of_lt' (Nat.lt_of_le_of_lt (toDigits_range inside).2 (by decide))

theorem decimal_digits (inside : b ∈ decimal n) : isDigit b = true := by
  obtain ⟨c,listed,rfl⟩ := mem_map.mp inside
  rw [isDigit,decide_eq_true_iff,UInt8.le_iff_toNat_le,UInt8.le_iff_toNat_le,digit_byte listed]
  exact toDigits_range listed

theorem decimal_value : digitsValue (decimal n) = n := by
  have chars : digitsValue (decimal n) = Nat.ofDigitChars 10 (Nat.toDigits 10 n) 0 := by
    unfold digitsValue decimal Nat.ofDigitChars
    rw [foldl_map]
    refine foldl_ext _ _ _ fun value c listed => ?_
    rw [digit_byte listed]
    rfl
  rw [chars,Nat.ofDigitChars_ten_toDigits]

theorem decimal_ne (n : Nat) : decimal n ≠ [] := by
  intro none
  have empty : Nat.toDigits 10 n = [] := map_eq_nil_iff.mp none
  exact absurd empty Nat.toDigits_ne_nil

-- An optional sign: whether it is a minus, how long it is, and what follows.
def readSign : List UInt8 → Bool × Nat × List UInt8
  | 45 :: rest => (true,1,rest)
  | 43 :: rest => (false,1,rest)
  | rest => (false,0,rest)

-- strtol in base ten with the checks of std::stoi: the value, and how many bytes
-- were made use of.
def stoi (text : List UInt8) : Except String (Int × Nat) :=
  let space := text.takeWhile isSpace
  let signed := readSign (text.dropWhile isSpace)
  let digits := signed.2.2.takeWhile isDigit
  let value : Int := if signed.1 then - (digitsValue digits : Int) else digitsValue digits
  if digits = [] then .error "stoi"
  else if value < - 2 ^ 31 ∨ 2 ^ 31 ≤ value then .error "stoi"
  else .ok (value,space.length + signed.2.1 + digits.length)

theorem digit_other (digit : isDigit b = true) : isSpace b = false ∧ b ≠ 45 ∧ b ≠ 43 := by
  rw [isDigit,decide_eq_true_iff] at digit
  have low : 48 ≤ b.toNat := digit.1
  refine ⟨?_,?_,?_⟩
  · rw [isSpace,decide_eq_false_iff_not]
    rintro (rfl | ⟨_,high⟩)
    · exact absurd low (by decide)
    · have : b.toNat ≤ 13 := high
      omega
  · rintro rfl; exact absurd low (by decide)
  · rintro rfl; exact absurd low (by decide)

theorem readSign_none (minus : first ≠ 45) (plus : first ≠ 43) : readSign (first :: rest) = (false,0,first :: rest) := by
  unfold readSign
  split
  · rename_i same; exact absurd (List.cons.inj same).1 minus
  · rename_i same; exact absurd (List.cons.inj same).1 plus
  · rfl

theorem stoi_digits : stoi (decimal n) = if n < 2 ^ 31 then .ok ((n : Int),(decimal n).length) else .error "stoi" := by
  cases digits : decimal n with
  | nil => exact absurd digits (decimal_ne n)
  | cons first rest =>
    have all : ∀ b ∈ first :: rest, isDigit b = true := fun b inside => decimal_digits (n := n) (digits ▸ inside)
    obtain ⟨space,minus,plus⟩ := digit_other (all first mem_cons_self)
    have value := digits ▸ decimal_value
    have taken := takeWhile_eq_self_iff.mpr all
    have front : (first :: rest).takeWhile isSpace = [] := by simp [takeWhile,space]
    have back : (first :: rest).dropWhile isSpace = first :: rest := by simp [dropWhile,space]
    simp only [stoi,front,back,readSign_none minus plus,taken,value,Bool.false_eq_true,if_false]
    by_cases small : n < 2 ^ 31
    · rw [if_pos small,if_neg (cons_ne_nil _ _),if_neg (by omega),length_nil,Nat.zero_add]
    · rw [if_neg small,if_neg (cons_ne_nil _ _),if_pos (by omega)]

theorem stoi_decimal (small : n < 2 ^ 31) : stoi (decimal n) = .ok ((n : Int),(decimal n).length) := by
  rw [stoi_digits,if_pos small]

theorem stoi_negative (small : n ≤ 2 ^ 31) : stoi (45 :: decimal n) = .ok (-(n : Int),1 + (decimal n).length) := by
  have front : (45 :: decimal n).takeWhile isSpace = [] := rfl
  have back : (45 :: decimal n).dropWhile isSpace = 45 :: decimal n := rfl
  have taken : (decimal n).takeWhile isDigit = decimal n := takeWhile_eq_self_iff.mpr fun b inside => decimal_digits inside
  simp only [stoi,front,back,readSign,taken,decimal_value,if_true]
  rw [if_neg (decimal_ne n),if_neg (by omega),length_nil,Nat.zero_add]

end Numerals
