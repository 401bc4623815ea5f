import CommonTools.Library.Scanning
import CommonTools.FeDaemon.Readers

namespace CommonTools.Slurm
open Numerals Scanning FeDaemon List

structure EproxyEnvSpec where
  includeVars : List Bytes
  includePrefixes : List Bytes
  excludeVars : List Bytes
  excludePrefixes : List Bytes
  includeAll : Bool

namespace EproxyEnvSpec

def fresh : EproxyEnvSpec := ⟨[],[],[],[],false⟩

def substr (text : Bytes) (pos count : Nat) : Bytes := (text.drop pos).take count

def skipped (line : Bytes) : Bool := line = [] || line.head? = some 35

def readLine (spec : EproxyEnvSpec) (line : Bytes) : EproxyEnvSpec :=
  if skipped line then spec
  else if line = [42] then {spec with includeAll := true}
  else if line.head? = some 33 then
    if line.getLast? = some 42 then {spec with excludePrefixes := spec.excludePrefixes.insert (substr line 1 (line.length - 2))}
    else {spec with excludeVars := spec.excludeVars.insert (substr line 1 (line.length - 1))}
  else
    if line.getLast? = some 42 then {spec with includePrefixes := spec.includePrefixes.insert (substr line 0 (line.length - 1))}
    else {spec with includeVars := spec.includeVars.insert line}

def readFrom (spec : EproxyEnvSpec) (envStream : Bytes) : EproxyEnvSpec := (byteLines [] envStream).foldl readLine spec

def matchesAnyPrefix (prefixes : List Bytes) (str : Bytes) : Bool := prefixes.any (·.isPrefixOf str)

def included (spec : EproxyEnvSpec) (var : Bytes) : Bool :=
  if spec.excludeVars.contains var || matchesAnyPrefix spec.excludePrefixes var then false
  else if spec.includeAll then true
  else spec.includeVars.contains var || matchesAnyPrefix spec.includePrefixes var

end EproxyEnvSpec

def Matches (pattern var : Bytes) : Prop := pattern = var ∨ ∃ front, pattern = front ++ [42] ∧ front <+: var

def Excludes (line var : Bytes) : Prop := ∃ pattern, line = 33 :: pattern ∧ Matches pattern var

def Includes (line var : Bytes) : Prop := line.head? ≠ some 33 ∧ (line = [42] ∨ Matches line var)

def specLines (text : Bytes) : List Bytes := (byteLines [] text).filter (!EproxyEnvSpec.skipped ·)

namespace EproxyEnvSpec
variable {spec : EproxyEnvSpec} {line var : Bytes}

def Excluded (spec : EproxyEnvSpec) (var : Bytes) : Prop := var ∈ spec.excludeVars ∨ ∃ front ∈ spec.excludePrefixes, front <+: var

def Listed (spec : EproxyEnvSpec) (var : Bytes) : Prop :=
  spec.includeAll = true ∨ var ∈ spec.includeVars ∨ ∃ front ∈ spec.includePrefixes, front <+: var

theorem included_iff : spec.included var = true ↔ ¬ spec.Excluded var ∧ spec.Listed var := by
  have excluded : (spec.excludeVars.contains var || matchesAnyPrefix spec.excludePrefixes var) = true ↔ spec.Excluded var := by
    simp [matchesAnyPrefix,Excluded]
  have listed : (spec.includeVars.contains var || matchesAnyPrefix spec.includePrefixes var) = true ↔
      var ∈ spec.includeVars ∨ ∃ front ∈ spec.includePrefixes, front <+: var := by
    simp [matchesAnyPrefix]
  unfold included Listed
  rw [← excluded,← listed]
  cases spec.excludeVars.contains var || matchesAnyPrefix spec.excludePrefixes var <;> cases spec.includeAll <;> simp

theorem matches_star : Matches (front ++ [42]) var ↔ front <+: var := by
  constructor
  · rintro (same | ⟨other,same,begins⟩)
    · exact ⟨[42],same⟩
    · exact append_cancel_right same ▸ begins
  · exact fun begins => .inr ⟨front,rfl,begins⟩

theorem matches_name (plain : name.getLast? ≠ some 42) : Matches name var ↔ name = var := by
  constructor
  · rintro (same | ⟨front,rfl,_⟩)
    · exact same
    · simp at plain
  · exact .inl

theorem readLine_exclusion (pattern : Bytes) : (∃ front, pattern = front ++ [42] ∧
      spec.readLine (33 :: pattern) = {spec with excludePrefixes := spec.excludePrefixes.insert front}) ∨
    pattern.getLast? ≠ some 42 ∧ spec.readLine (33 :: pattern) = {spec with excludeVars := spec.excludeVars.insert pattern} := by
  rcases eq_nil_or_concat' pattern with rfl | ⟨front,last,rfl⟩
  · exact .inr ⟨by simp,rfl⟩
  · have ends : (33 :: (front ++ [last])).getLast? = some last := @getLast?_concat _ (33 :: front) last
    by_cases star : last = 42
    · subst star
      refine .inl ⟨front,rfl,?_⟩
      have cut : substr (33 :: (front ++ [42])) 1 ((33 :: (front ++ [42])).length - 2) = front := by simp [substr]
      rw [readLine,cut]
      simp [skipped,ends]
    · refine .inr ⟨by simp [star],?_⟩
      have cut : substr (33 :: (front ++ [last])) 1 ((33 :: (front ++ [last])).length - 1) = front ++ [last] := by simp [substr]
      rw [readLine,cut]
      simp [skipped,ends,star]

theorem readLine_inclusion (counts : skipped line = false) (other : line ≠ [42]) (plain : line.head? ≠ some 33) :
    (∃ front, line = front ++ [42] ∧ spec.readLine line = {spec with includePrefixes := spec.includePrefixes.insert front}) ∨
    line.getLast? ≠ some 42 ∧ spec.readLine line = {spec with includeVars := spec.includeVars.insert line} := by
  by_cases star : line.getLast? = some 42
  · obtain ⟨front,rfl⟩ := getLast?_eq_some_iff.mp star
    refine .inl ⟨front,rfl,?_⟩
    have cut : substr (front ++ [42]) 0 ((front ++ [42]).length - 1) = front := by simp [substr]
    rw [readLine,if_neg (by simp [counts]),if_neg other,if_neg plain,if_pos star,cut]
  · refine .inr ⟨star,?_⟩
    rw [readLine,if_neg (by simp [counts]),if_neg other,if_neg plain,if_neg star]

theorem readLine_skipped (skips : skipped line = true) : spec.readLine line = spec := if_pos skips

theorem readLine_all : spec.readLine [42] = {spec with includeAll := true} := rfl

theorem mem_insert_iff {x y : Bytes} {set : List Bytes} : x ∈ set.insert y ↔ x ∈ set ∨ y = x := by
  rw [List.mem_insert_iff,or_comm,eq_comm]

theorem prefixes_insert {prefixes : List Bytes} :
    (∃ other ∈ prefixes.insert front, other <+: var) ↔ (∃ other ∈ prefixes, other <+: var) ∨ front <+: var := by
  simp only [mem_insert_iff,or_and_right,exists_or,exists_eq_left']

theorem excludes_cons : Excludes (33 :: pattern) var ↔ Matches pattern var := by
  constructor
  · rintro ⟨other,same,matched⟩
    cases same
    exact matched
  · exact fun matched => ⟨pattern,rfl,matched⟩

theorem excludes_plain (plain : line.head? ≠ some 33) : ¬ Excludes line var := by
  rintro ⟨pattern,rfl,_⟩
  exact plain rfl

theorem readLine_adds : ((spec.readLine line).Excluded var ↔ spec.Excluded var ∨ skipped line = false ∧ Excludes line var) ∧
    ((spec.readLine line).Listed var ↔ spec.Listed var ∨ skipped line = false ∧ Includes line var) := by
  cases counts : skipped line with
  | true => simp [readLine_skipped counts]
  | false =>
    simp only [true_and]
    by_cases marked : line.head? = some 33
    · obtain ⟨pattern,rfl⟩ := List.head?_eq_some_iff.mp marked
      have unlisted : ¬ Includes (33 :: pattern) var := fun includes => includes.1 rfl
      simp only [unlisted,or_false,excludes_cons]
      rcases @readLine_exclusion spec pattern with ⟨front,rfl,read⟩ | ⟨name,read⟩
      · rw [read,matches_star]
        exact ⟨by rw [Excluded,prefixes_insert,← or_assoc]; rfl,Iff.rfl⟩
      · rw [read,matches_name name]
        exact ⟨by rw [Excluded,mem_insert_iff,or_right_comm]; rfl,Iff.rfl⟩
    · have kept : ¬ Excludes line var := excludes_plain marked
      simp only [kept,or_false,Includes,ne_eq,marked,not_false_eq_true,true_and]
      by_cases all : line = [42]
      · subst all
        rw [readLine_all]
        exact ⟨Iff.rfl,by simp [Listed]⟩
      · simp only [all,false_or]
        rcases @readLine_inclusion spec line counts all marked with ⟨front,rfl,read⟩ | ⟨name,read⟩
        · rw [read,matches_star]
          exact ⟨Iff.rfl,by rw [Listed,prefixes_insert,← or_assoc,← or_assoc,or_assoc (a := spec.includeAll = true)]; rfl⟩
        · rw [read,matches_name name]
          exact ⟨Iff.rfl,by rw [Listed,mem_insert_iff,or_right_comm,← or_assoc]; rfl⟩

theorem foldl_adds (lines : List Bytes) (spec : EproxyEnvSpec) (var : Bytes) :
    ((lines.foldl readLine spec).Excluded var ↔ spec.Excluded var ∨ ∃ line ∈ lines.filter (!skipped ·), Excludes line var) ∧
    ((lines.foldl readLine spec).Listed var ↔ spec.Listed var ∨ ∃ line ∈ lines.filter (!skipped ·), Includes line var) := by
  induction lines generalizing spec with
  | nil => simp
  | cons line lines ih =>
    obtain ⟨excluded,listed⟩ := readLine_adds
    obtain ⟨excludedRest,listedRest⟩ := ih (spec.readLine line)
    rw [foldl_cons,excludedRest,listedRest,excluded,listed]
    cases counts : skipped line with
    | true => simp [counts]
    | false =>
      rw [filter_cons_of_pos (by simp [counts]),exists_mem_cons_iff,exists_mem_cons_iff]
      simp [or_assoc]

end EproxyEnvSpec

open EproxyEnvSpec

theorem readFrom_included : (EproxyEnvSpec.fresh.readFrom text).included var = true ↔
    (∀ line ∈ specLines text, ¬ Excludes line var) ∧ ∃ line ∈ specLines text, Includes line var := by
  obtain ⟨excluded,listed⟩ := foldl_adds (byteLines [] text) EproxyEnvSpec.fresh var
  rw [included_iff,readFrom,excluded,listed]
  simp [Excluded,Listed,EproxyEnvSpec.fresh,specLines]

theorem env_spec_exact (text var : Bytes) : ((EproxyEnvSpec.fresh.readFrom text).included var = true ↔
      (∀ line ∈ specLines text, ¬ Excludes line var) ∧ ∃ line ∈ specLines text, Includes line var) ∧
    (∀ other, (∀ line, line ∈ specLines other ↔ line ∈ specLines text) →
      (EproxyEnvSpec.fresh.readFrom other).included var = (EproxyEnvSpec.fresh.readFrom text).included var) ∧
    ∀ longer added, (∀ line, line ∈ specLines longer ↔ line ∈ specLines text ∨ line = added) →
      (added.head? = some 33 → (EproxyEnvSpec.fresh.readFrom longer).included var = true →
        (EproxyEnvSpec.fresh.readFrom text).included var = true) ∧
      (added.head? ≠ some 33 → (EproxyEnvSpec.fresh.readFrom text).included var = true →
        (EproxyEnvSpec.fresh.readFrom longer).included var = true) := by
  refine ⟨readFrom_included,fun other same => ?_,fun longer added lines => ⟨fun marked included => ?_,fun plain included => ?_⟩⟩
  · rw [Bool.eq_iff_iff,readFrom_included,readFrom_included]
    simp only [same]
  · rw [readFrom_included] at included ⊢
    obtain ⟨kept,line,listed,includes⟩ := included
    refine ⟨fun line inside => kept line ((lines line).mpr (.inl inside)),line,?_,includes⟩
    rcases (lines line).mp listed with inside | rfl
    · exact inside
    · exact absurd marked includes.1
  · rw [readFrom_included] at included ⊢
    obtain ⟨kept,line,listed,includes⟩ := included
    refine ⟨fun line inside => ?_,line,(lines line).mpr (.inl listed),includes⟩
    rcases (lines line).mp inside with inside | rfl
    · exact kept line inside
    · exact excludes_plain plain

end CommonTools.Slurm
