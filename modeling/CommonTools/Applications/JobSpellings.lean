import CommonTools.Applications.FluxHistory

namespace CommonTools.Applications.FluxHistory
open Numerals FeDaemon List

def isAlnum (b : UInt8) : Bool := isDigit b || decide (65 ≤ b ∧ b ≤ 90) || decide (97 ≤ b ∧ b ≤ 122)

def f58Body : Bytes → Option Bytes
  | 102 :: digits => some digits
  | 198 :: 146 :: digits => some digits
  | _ => none

def f58Value (digits : Bytes) : Nat := Nat.ofDigits 58 (digits.map f58Digits.idxOf).reverse

def toId (value : Nat) : Option (BitVec 64) := if value < 2 ^ 64 then some (BitVec.ofNat 64 value) else none

-- flux_job_id_parse.
def jobIdParse (text : Bytes) : Option (BitVec 64) :=
  if text ≠ [] ∧ text.all isDigit then toId (digitsValue text)
  else
    match f58Body text with
    | none => none
    | some digits => if digits ≠ [] ∧ digits.all f58Digits.contains then toId (f58Value digits) else none

-- The repairs that are tried one after the other, each with what it gives to flux_job_id_parse.
def parseJobId (forceAscii : Bool) (raw : Bytes) : Except Bytes (BitVec 64) :=
  if raw = [] then .error (ascii "provided empty job ID")
  else
    let numeric := if raw.all isDigit then jobIdParse raw else none
    let lettered := if (!forceAscii && utf8Prefix.isPrefixOf raw) || raw.head? == some 102 then jobIdParse raw else none
    let replaced := if raw.head? = some 70 then jobIdParse (102 :: raw.tail) else none
    let prepended := if raw.dropWhile (!isAlnum ·) ≠ [] then jobIdParse (102 :: raw) else none
    match numeric <|> lettered <|> replaced <|> prepended with
    | some id => .ok id
    | none => .error (ascii "failed to parse Flux job ID: " ++ raw)

inductive Spelling where
  | utf8
  | lower
  | upper
  | nothing
  | other (bytes : Bytes) (some' : bytes ≠ []) (plain : ∀ b ∈ bytes, isAlnum b = false ∧ b ≠ 0)

def Spelling.start : Spelling → Bytes
  | .utf8 => utf8Prefix
  | .lower => [102]
  | .upper => [70]
  | .nothing => []
  | .other bytes _ _ => bytes

def Spelling.respell (spelling : Spelling) (forceAscii : Bool) (text : Bytes) : Bytes :=
  spelling.start ++ text.drop (if forceAscii then 1 else 2)

def jobDigits (id : BitVec 64) : Bytes := (f58 id).tail

-- The spellings that are read back: the prefix is known, or there is none and the digits do not look like one.
def Spelling.Read (forceAscii : Bool) (id : BitVec 64) : Spelling → Prop
  | .utf8 => forceAscii = false
  | .lower => True
  | .upper => True
  | .nothing => (jobDigits id).head? = some 102 ∨ (jobDigits id).head? = some 70 → (jobDigits id).length = 1
  | .other bytes _ _ => bytes = utf8Prefix ∧ forceAscii = false

section Digits
variable {id : BitVec 64}

theorem jobDigits_numbers (id : BitVec 64) : (jobDigits id).map f58Digits.idxOf = (f58Numbers id.toNat).reverse := by
  rw [jobDigits,f58,tail_cons,map_reverse,f58Numbers_read]

theorem jobDigits_value (id : BitVec 64) : f58Value (jobDigits id) = id.toNat := by
  rw [f58Value,jobDigits_numbers,reverse_reverse,f58Numbers_value]

theorem jobDigits_base (id : BitVec 64) : ∀ b ∈ jobDigits id, b ∈ f58Digits := by
  intro b inside
  rw [jobDigits,f58,tail_cons,mem_reverse] at inside
  obtain ⟨digit,listed,rfl⟩ := mem_map.mp inside
  have small : digit < f58Digits.length := f58Digits_length ▸ f58Numbers_small digit listed
  rw [getD_eq_getElem _ _ small]
  exact getElem_mem small

theorem jobDigits_ne (id : BitVec 64) : jobDigits id ≠ [] := by
  intro none'
  have numbers := jobDigits_numbers id
  rw [none'] at numbers
  have empty := reverse_eq_nil_iff.mp numbers.symm
  unfold f58Numbers at empty
  split at empty
  · cases empty
  · rename_i nonzero
    exact nonzero (Nat.digits_eq_nil_iff_eq_zero.mp empty)

theorem base_alnum : ∀ b ∈ f58Digits, isAlnum b = true := by decide +kernel

theorem plain_foreign (plain : isAlnum b = false) : b ∉ f58Digits := fun listed =>
  Bool.false_ne_true (plain.symm.trans (base_alnum b listed))

theorem utf8Prefix_foreign : ∀ b ∈ utf8Prefix, b ∉ f58Digits := by
  have plain : ∀ b ∈ utf8Prefix, isAlnum b = false := by decide +kernel
  exact fun b inside => plain_foreign (plain b inside)

theorem base_contains {digits : Bytes} : digits.all f58Digits.contains = true ↔ ∀ b ∈ digits, b ∈ f58Digits := by
  simp [all_eq_true]

theorem f58Value_cons : f58Value (c :: rest) = f58Value rest + 58 ^ rest.length * f58Digits.idxOf c := by
  rw [f58Value,f58Value,map_cons,reverse_cons,Nat.ofDigits_append]
  simp

end Digits

section Trying
variable {id : BitVec 64} {digits : Bytes}

theorem parse_lettered (some' : digits ≠ []) (base : ∀ b ∈ digits, b ∈ f58Digits) :
    jobIdParse (102 :: digits) = toId (f58Value digits) ∧ jobIdParse (utf8Prefix ++ digits) = toId (f58Value digits) := by
  have all := base_contains.mpr base
  constructor
  · simp [jobIdParse,f58Body,some',all,isDigit]
  · simp [jobIdParse,f58Body,some',all,isDigit,utf8Prefix]

theorem parse_id (id : BitVec 64) : jobIdParse (102 :: jobDigits id) = some id ∧ jobIdParse (utf8Prefix ++ jobDigits id) = some id := by
  obtain ⟨lower,utf8⟩ := parse_lettered (jobDigits_ne id) (jobDigits_base id)
  rw [lower,utf8,jobDigits_value,toId,if_pos id.isLt,BitVec.ofNat_toNat]
  exact ⟨rfl,rfl⟩

theorem parse_other (inside : b ∈ digits) (foreign : b ∉ f58Digits) :
    jobIdParse (102 :: digits) = none ∧ jobIdParse (utf8Prefix ++ digits) = none := by
  have some : ¬ digits.all f58Digits.contains = true := fun all => foreign (base_contains.mp all b inside)
  constructor
  · simp [jobIdParse,f58Body,some,isDigit]
  · simp [jobIdParse,f58Body,some,isDigit,utf8Prefix]

-- A spelling of digits that are not all decimal is not taken for a number, and it has something to be repaired.
theorem parseJobId_tries (forceAscii : Bool) {start : Bytes} (lettered : ¬ (jobDigits id).all isDigit = true) :
    parseJobId forceAscii (start ++ jobDigits id) =
      match (if (!forceAscii && utf8Prefix.isPrefixOf (start ++ jobDigits id)) || (start ++ jobDigits id).head? == some 102
          then jobIdParse (start ++ jobDigits id) else none) <|>
        (if (start ++ jobDigits id).head? = some 70 then jobIdParse (102 :: (start ++ jobDigits id).tail) else none) <|>
        jobIdParse (102 :: (start ++ jobDigits id)) with
      | some found => .ok found
      | none => .error (ascii "failed to parse Flux job ID: " ++ (start ++ jobDigits id)) := by
  have nonempty : start ++ jobDigits id ≠ [] := by simp [jobDigits_ne]
  have mixed : ¬ (start ++ jobDigits id).all isDigit = true := by
    rw [all_append,Bool.and_eq_true]
    exact fun both => lettered both.2
  have printable : (start ++ jobDigits id).dropWhile (!isAlnum ·) ≠ [] := by
    intro none'
    obtain ⟨b,rest,digits⟩ := exists_cons_of_ne_nil (jobDigits_ne id)
    have inside : b ∈ jobDigits id := digits ▸ mem_cons_self
    have plain := dropWhile_eq_nil_iff.mp none' b (mem_append_right _ inside)
    rw [base_alnum b (jobDigits_base id b inside)] at plain
    cases plain
  rw [parseJobId,if_neg nonempty]
  simp only [if_neg mixed,if_pos printable]
  rfl

theorem read_lower (lettered : ¬ (jobDigits id).all isDigit = true) : parseJobId forceAscii ([102] ++ jobDigits id) = .ok id := by
  rw [parseJobId_tries forceAscii lettered]
  simp [(parse_id id).1]

theorem read_upper (lettered : ¬ (jobDigits id).all isDigit = true) : parseJobId forceAscii ([70] ++ jobDigits id) = .ok id := by
  rw [parseJobId_tries forceAscii lettered]
  simp [(parse_id id).1,utf8Prefix]

theorem read_utf8 (lettered : ¬ (jobDigits id).all isDigit = true) :
    parseJobId forceAscii (utf8Prefix ++ jobDigits id) = .ok id ↔ forceAscii = false := by
  have failed : jobIdParse (102 :: (utf8Prefix ++ jobDigits id)) = none :=
    (parse_other (mem_append_left _ mem_cons_self) (utf8Prefix_foreign 198 mem_cons_self)).1
  rw [parseJobId_tries forceAscii lettered]
  cases forceAscii with
  | false =>
    have whole : utf8Prefix.isPrefixOf (utf8Prefix ++ jobDigits id) = true := List.isPrefixOf_iff_prefix.mpr (prefix_append _ _)
    simp [whole,(parse_id id).2]
  | true =>
    have first : (utf8Prefix ++ jobDigits id).head? = some 198 := rfl
    simp [first,failed]

theorem rest_other (digits : jobDigits id = c :: rest) (positive : 0 < f58Digits.idxOf c)
    (some' : rest ≠ []) : ∃ found, jobIdParse (102 :: rest) = some found ∧ found ≠ id := by
  have base : ∀ b ∈ rest, b ∈ f58Digits := fun b inside => jobDigits_base id b (digits ▸ mem_cons_of_mem _ inside)
  have value := jobDigits_value id
  rw [digits,f58Value_cons] at value
  have less : f58Value rest < id.toNat := by
    have := Nat.mul_pos (Nat.pow_pos (n := rest.length) (show 0 < 58 by omega)) positive
    omega
  have small := less.trans id.isLt
  refine ⟨BitVec.ofNat 64 (f58Value rest),?_,fun same => ?_⟩
  · rw [(parse_lettered some' base).1,toId,if_pos small]
  · rw [← same,BitVec.toNat_ofNat,Nat.mod_eq_of_lt small] at less
    exact Nat.lt_irrefl _ less

theorem read_first (digits : jobDigits id = c :: rest) (positive : 0 < f58Digits.idxOf c)
    (what : Bytes) :
    (match jobIdParse (102 :: rest) <|> some id with
      | some found => .ok found
      | none => .error what) = Except.ok id ↔ (jobDigits id).length = 1 := by
  by_cases some' : rest = []
  · subst some'
    rw [digits]
    exact ⟨fun _ => rfl,fun _ => rfl⟩
  · obtain ⟨found,parsed,other⟩ := rest_other digits positive some'
    rw [digits,parsed]
    refine ⟨fun same => absurd (Except.ok.inj same) other,fun single => absurd ?_ some'⟩
    exact length_eq_zero_iff.mp (Nat.succ.inj single)

theorem read_nothing (lettered : ¬ (jobDigits id).all isDigit = true) : parseJobId forceAscii ([] ++ jobDigits id) = .ok id ↔
      ((jobDigits id).head? = some 102 ∨ (jobDigits id).head? = some 70 → (jobDigits id).length = 1) := by
  have tries := @parseJobId_tries id forceAscii [] lettered
  rw [nil_append] at tries ⊢
  rw [tries,(parse_id id).1]
  obtain ⟨c,rest,digits⟩ := exists_cons_of_ne_nil (jobDigits_ne id)
  have listed : c ∈ f58Digits := jobDigits_base id c (digits ▸ mem_cons_self)
  have ascii' : c ≠ 198 := fun same => utf8Prefix_foreign 198 mem_cons_self (same ▸ listed)
  have plain : utf8Prefix.isPrefixOf (jobDigits id) = false := by
    rw [digits]
    simp [utf8Prefix,isPrefixOf,Ne.symm ascii']
  have first : (jobDigits id).head? = some c := by rw [digits]; rfl
  have tail : (jobDigits id).tail = rest := by rw [digits]; rfl
  rw [plain,first,tail]
  by_cases lower : c = 102
  · subst lower
    have whole : jobIdParse (jobDigits id) = jobIdParse (102 :: rest) := by rw [digits]
    simp only [whole]
    simpa using read_first digits (by decide) (ascii "failed to parse Flux job ID: " ++ jobDigits id)
  · by_cases upper : c = 70
    · subst upper
      simpa using read_first digits (by decide) (ascii "failed to parse Flux job ID: " ++ jobDigits id)
    · simp [lower,upper]

theorem other_behind (foreign : ∀ b ∈ bytes, b ∉ f58Digits) (known : bytes ≠ utf8Prefix)
    (begins : utf8Prefix.isPrefixOf (bytes ++ jobDigits id) = true) : jobIdParse (bytes ++ jobDigits id) = none := by
  obtain ⟨rest,whole⟩ := List.isPrefixOf_iff_prefix.mp begins
  rcases append_eq_append_iff.mp whole with ⟨more,own,_⟩ | ⟨more,own,digits⟩
  · have some' : more ≠ [] := fun none' => known (by rw [own,none',append_nil])
    obtain ⟨b,_,split⟩ := exists_cons_of_ne_nil some'
    have inside : b ∈ more := split ▸ mem_cons_self
    rw [own]
    exact (parse_other (mem_append_left _ inside) (foreign b (own ▸ mem_append_right _ inside))).2
  · have none' : more = [] := eq_nil_iff_forall_not_mem.mpr fun b inside =>
      utf8Prefix_foreign b (own ▸ mem_append_right _ inside) (jobDigits_base id b (digits ▸ mem_append_left _ inside))
    rw [none',append_nil] at own
    exact absurd own.symm known

theorem read_other (lettered : ¬ (jobDigits id).all isDigit = true) (some' : bytes ≠ []) (plain : ∀ b ∈ bytes, isAlnum b = false ∧ b ≠ 0) :
    parseJobId forceAscii (bytes ++ jobDigits id) = .ok id ↔ bytes = utf8Prefix ∧ forceAscii = false := by
  by_cases known : bytes = utf8Prefix
  · subst known
    rw [read_utf8 lettered]
    simp
  have foreign : ∀ b ∈ bytes, b ∉ f58Digits := fun b inside => plain_foreign (plain b inside).1
  obtain ⟨first,others,split⟩ := exists_cons_of_ne_nil some'
  have inside : first ∈ bytes := split ▸ mem_cons_self
  have head : (bytes ++ jobDigits id).head? = some first := by rw [split]; rfl
  have prepended : jobIdParse (102 :: (bytes ++ jobDigits id)) = none := (parse_other (mem_append_left _ inside) (foreign first inside)).1
  have letters : isAlnum 102 = true ∧ isAlnum 70 = true := by decide
  have lower : first ≠ 102 := fun same => Bool.false_ne_true ((plain first inside).1.symm.trans (same ▸ letters.1))
  have upper : first ≠ 70 := fun same => Bool.false_ne_true ((plain first inside).1.symm.trans (same ▸ letters.2))
  rw [parseJobId_tries forceAscii lettered,prepended,head]
  by_cases begins : utf8Prefix.isPrefixOf (bytes ++ jobDigits id) = true
  · simp [other_behind foreign known begins,upper,known]
  · simp [begins,lower,upper,known]

end Trying

def f58Site (forceAscii : Bool) : Site := {site with forceAscii := forceAscii}

theorem encodeJobId_digits {encodeAscii : Bool} {id : BitVec 64} {text : Bytes} (encoded : encodeJobId (f58Site encodeAscii) id = .ok text) :
    text.drop (if encodeAscii then 1 else 2) = jobDigits id := by
  have whole : text = if encodeAscii then f58 id else utf8Prefix ++ jobDigits id := (Except.ok.inj encoded).symm
  cases encodeAscii with
  | false | true => rw [whole]; rfl

theorem job_spellings_read (encodeAscii parseAscii : Bool) (id : BitVec 64) (text : Bytes)
    (encoded : encodeJobId (f58Site encodeAscii) id = .ok text) (lettered : ¬ (jobDigits id).all isDigit = true) (spelling : Spelling) :
    parseJobId parseAscii (spelling.respell encodeAscii text) = .ok id ↔ spelling.Read parseAscii id := by
  rw [Spelling.respell,encodeJobId_digits encoded]
  cases spelling with
  | utf8 => exact read_utf8 lettered
  | lower => exact iff_of_true (read_lower lettered) trivial
  | upper => exact iff_of_true (read_upper lettered) trivial
  | nothing => exact read_nothing lettered
  | other bytes some' plain => exact read_other lettered some' plain

theorem nine_encoded : encodeJobId (f58Site true) 9 = .ok (ascii "fA") := by decide

theorem nine_lettered : ¬ (jobDigits 9).all isDigit = true := by decide

theorem job_spellings_read_upper : parseJobId false (Spelling.upper.respell true (ascii "fA")) = .ok 9 ↔ Spelling.upper.Read false 9 :=
  job_spellings_read true false 9 (ascii "fA") nine_encoded nine_lettered .upper

def questionMarks : Spelling := .other (ascii "??") (by decide +kernel) (by decide +kernel)

theorem job_spellings_lost : parseJobId true (questionMarks.respell true (ascii "fA")) = .error (ascii "failed to parse Flux job ID: ??A") ∧
    encodeJobId (f58Site true) 2213 = .ok (ascii "ffA") ∧ parseJobId true (Spelling.nothing.respell true (ascii "ffA")) = .ok 9 ∧
    ¬ ∀ (encodeAscii parseAscii : Bool) (id : BitVec 64) (text : Bytes), encodeJobId (f58Site encodeAscii) id = .ok text →
      ¬ (jobDigits id).all isDigit = true → ∀ spelling : Spelling, parseJobId parseAscii (spelling.respell encodeAscii text) = .ok id := by
  have unread : parseJobId true (questionMarks.respell true (ascii "fA")) = .error (ascii "failed to parse Flux job ID: ??A") := by decide
  refine ⟨unread,by decide,by decide,fun survive => ?_⟩
  have found := survive true true 9 (ascii "fA") nine_encoded nine_lettered questionMarks
  rw [unread] at found
  cases found

end CommonTools.Applications.FluxHistory
