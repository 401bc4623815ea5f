import Mathlib.Data.List.ReduceOption
import CommonTools.Slurm.Texts

namespace CommonTools.Slurm
open Numerals Texts FeDaemon List

structure HetJobId where
  job_id : BitVec 32
  step_id : BitVec 32
  het_offset : Option (BitVec 32)
  in_salloc : Bool
  is_batch_step : Bool
  is_extern_step : Bool
  deriving DecidableEq

def batchText : Bytes := ascii "batch"

def externText : Bytes := ascii "extern"

-- Outside salloc the offset is with the job, inside with the step.
structure IdFields where
  jobId : Bytes
  stepId : Bytes
  hetOffset : Bytes
  in_salloc : Bool

def splitIds (first second : Bytes) : IdFields :=
  if first.contains 43 then ⟨(splitTwo first 43).1,second,(splitTwo first 43).2,false⟩
  else if second.contains 43 then ⟨first,(splitTwo second 43).1,(splitTwo second 43).2,true⟩
  else ⟨first,second,[],false⟩

def IdFields.numbers (ids : IdFields) : Except String HetJobId := do
  let job_id ← stoul ids.jobId
  let step_id ← stoul ids.stepId
  if ids.hetOffset = [] then
    return ⟨BitVec.ofNat 32 job_id,BitVec.ofNat 32 step_id,none,false,ids.stepId == batchText,ids.stepId == externText⟩
  else
    let offset ← stoul ids.hetOffset
    return ⟨BitVec.ofNat 32 job_id,BitVec.ofNat 32 step_id,some (BitVec.ofNat 32 offset),ids.in_salloc,
      ids.stepId == batchText,ids.stepId == externText⟩

def parseSacctHetjobid (sacctJobId : Bytes) : Except Bytes HetJobId :=
  let (first,second) := splitTwo sacctJobId 46
  if second = [] then .error (ascii "Failed to parse sacct output: \x60" ++ sacctJobId ++ ascii "\x60")
  else
    let ids := splitIds first second
    match ids.numbers with
    | .ok id => .ok id
    | .error _ => .error (ascii "Failed to parse job ID " ++ sacctJobId ++ ascii " from sacct. Ensure that the job is valid and \x60sacct -o jobid -n -j " ++
        ids.jobId ++ ascii "." ++ ids.stepId ++ ascii "\x60 produces an ID list. If \x60salloc\x60 is not working, set environment CTI_SLURM_DISABLE_SACCT=1 (this will also disable MPMD support)")

-- What a run of sacct prints, line by line, and its exit status.
structure Answer where
  lines : List Bytes
  status : Int
  deriving DecidableEq

def selectJson (line : Bytes) : Option Bytes :=
  if line.contains 46 then
    let (key,value) := splitTwo (removeLeadingWhitespace line) 58
    let value := removeLeadingWhitespace value
    let value := if value.getLast? = some 44 then value.dropLast else value
    if key ≠ ascii "\"id\"" ∨ value.length < 2 ∨ value.head? ≠ some 34 ∨ value.getLast? ≠ some 34 then none
    else some ((value.drop 1).take (value.length - 2))
  else none

def selectYaml (line : Bytes) : Option Bytes :=
  if line.contains 46 then
    let fields := splitString 4 (removeLeadingWhitespace line) 32
    if fields.getD 0 [] ≠ ascii "!!str" ∨ fields.getD 1 [] ≠ ascii "id:" ∨ fields.getD 2 [] ≠ ascii "!!str" then none
    else some (fields.getD 3 [])
  else none

-- A job id without a step has no dot.
def selectPlaintext (line : Bytes) : Option Bytes := if line.contains 46 then some line else none

def readIds (select : Bytes → Option Bytes) : List HetJobId → List Bytes → Except Bytes (List HetJobId)
  | result,[] => .ok result
  | result,line :: rest =>
    match select line with
    | none => readIds select result rest
    | some text => do
      let id ← parseSacctHetjobid text
      readIds select (result ++ [id]) rest

-- An exception is caught, and clears the result as a failed command does.
def runSacct (select : Bytes → Option Bytes) (answer : Answer) : List HetJobId :=
  match readIds select [] answer.lines with
  | .error _ => []
  | .ok result => if answer.status ≠ 0 then [] else result

-- One round: what the three variants answer, and whether squeue knows the job.
structure Attempt where
  json : Answer
  yaml : Answer
  plaintext : Answer
  registered : Bool

def Attempt.result (a : Attempt) : List HetJobId :=
  let result := runSacct selectJson a.json
  let result := if result.isEmpty then runSacct selectYaml a.yaml else result
  if result.isEmpty then runSacct selectPlaintext a.plaintext else result

def HetJobId.wrapper (id : HetJobId) : Bool := id.is_batch_step || id.is_extern_step

def retryAttempts : List Attempt → List HetJobId
  | [] => []
  | attempt :: rest =>
    if attempt.result.isEmpty then (if attempt.registered then retryAttempts rest else [])
    else
      let result := attempt.result.filter (!·.wrapper)
      if result.isEmpty then retryAttempts rest else result

def maxRetry : Nat := 24

def getAllJobIds (disable_sacct : Option CStr) (job_id step_id : BitVec 32) (attempts : Nat → Attempt) :
    Except Bytes (List HetJobId) :=
  if disable_sacct.any (fun value => value.1.head? ≠ some 48) then .ok [⟨job_id,step_id,some 0,false,false,false⟩]
  else
    let result := retryAttempts ((List.range maxRetry).map attempts)
    let jobStepId := decimal job_id.toNat ++ ascii "." ++ decimal step_id.toNat
    if result.isEmpty then
      .error (ascii "No job IDs found for " ++ jobStepId ++ ascii ". Ensure that the job is valid and \x60sacct -o jobid -n -j " ++ jobStepId ++
        ascii "\x60 produces an ID list. If \x60salloc\x60 is not working, set environment CTI_SLURM_DISABLE_SACCT=1 (this will also disable MPMD support)")
    else .ok result

inductive Step where
  | number (n : BitVec 32)
  | batchStep
  | externStep
  deriving DecidableEq

inductive Het where
  | plain
  | outside (offset : BitVec 32)
  | inside (offset : BitVec 32)
  deriving DecidableEq

structure StepEntry where
  job : BitVec 32
  step : Step
  het : Het
  deriving DecidableEq

inductive Entry where
  | step (entry : StepEntry)
  | bare (job : BitVec 32) (offset : Option (BitVec 32))
  deriving DecidableEq

def Step.text : Step → Bytes
  | .number n => decimal n.toNat
  | .batchStep => batchText
  | .externStep => externText

def StepEntry.first (entry : StepEntry) : Bytes :=
  match entry.het with
  | .outside offset => decimal entry.job.toNat ++ 43 :: decimal offset.toNat
  | _ => decimal entry.job.toNat

def StepEntry.second (entry : StepEntry) : Bytes :=
  match entry.het with
  | .inside offset => entry.step.text ++ 43 :: decimal offset.toNat
  | _ => entry.step.text

def StepEntry.text (entry : StepEntry) : Bytes := entry.first ++ 46 :: entry.second

def Entry.text : Entry → Bytes
  | .step entry => entry.text
  | .bare job none => decimal job.toNat
  | .bare job (some offset) => decimal job.toNat ++ 43 :: decimal offset.toNat

def Het.offset : Het → Option (BitVec 32)
  | .plain => none
  | .outside offset | .inside offset => some offset

def Het.inSalloc : Het → Bool
  | .inside _ => true
  | _ => false

def Entry.id : Entry → Option HetJobId
  | .step ⟨job,.number n,het⟩ => some ⟨job,n,het.offset,het.inSalloc,false,false⟩
  | _ => none

def Entry.isWrapper : Entry → Bool
  | .step ⟨_,.batchStep,_⟩ | .step ⟨_,.externStep,_⟩ => true
  | _ => false

abbrev Listing := List Entry

def Listing.numbered (listing : Listing) : List HetJobId := listing.filterMap Entry.id

-- The lines that sacct prints in each format: one for an entry of the listing, or any other line.
inductive JsonLine : Bytes → Option Entry → Prop where
  | id {indent tail : Bytes} (before : Blank indent) (after : Blank tail) (entry : Entry) (comma : Bool) :
    JsonLine (indent ++ (ascii "\"id\": \"" ++ entry.text ++ (if comma then [34,44] else [34])) ++ tail) (some entry)
  | other {line : Bytes} (unlike : 46 ∉ line ∨ ∀ indent rest, Blank indent → line ≠ indent ++ (ascii "\"id\":" ++ rest)) :
    JsonLine line none

inductive YamlLine : Bytes → Option Entry → Prop where
  | id {indent tail : Bytes} (before : Blank indent) (after : Blank tail) (entry : Entry) :
    YamlLine (indent ++ (ascii "!!str id: !!str " ++ entry.text) ++ tail) (some entry)
  | other {line : Bytes} (unlike : 46 ∉ line ∨ ∀ indent rest, Blank indent → line ≠ indent ++ (ascii "!!str id: !!str " ++ rest)) :
    YamlLine line none

inductive PlainLine : Bytes → Option Entry → Prop where
  | id {indent tail : Bytes} (before : Blank indent) (after : Blank tail) (entry : Entry) :
    PlainLine (indent ++ entry.text ++ tail) (some entry)
  | other {line : Bytes} (unlike : 46 ∉ line) : PlainLine line none

def Shows (Line : Bytes → Option Entry → Prop) (answer : Answer) (listing : Listing) : Prop :=
  ∃ items, List.Forall₂ Line answer.lines items ∧ items.reduceOption = listing

-- Every variant that succeeds shows the listing, and one does.
structure Attempt.Reports (attempt : Attempt) (listing : Listing) : Prop where
  json : attempt.json.status = 0 → Shows JsonLine attempt.json listing
  yaml : attempt.yaml.status = 0 → Shows YamlLine attempt.yaml listing
  plaintext : attempt.plaintext.status = 0 → Shows PlainLine attempt.plaintext listing
  succeeds : attempt.json.status = 0 ∨ attempt.yaml.status = 0 ∨ attempt.plaintext.status = 0

theorem decimal_free (other : isDigit b = false) : b ∉ decimal n := by
  intro inside
  rw [decimal_digits inside] at other
  cases other

theorem blank_free (other : isBlank b = false) (blank : Blank text) : b ∉ text := by
  intro inside
  rw [blank b inside] at other
  cases other

theorem step_free (other : isDigit b = false) (batchStep : b ∉ batchText) (externStep : b ∉ externText) {step : Step} : b ∉ step.text := by
  cases step with
  | number n => exact decimal_free other
  | batchStep => exact batchStep
  | externStep => exact externStep

theorem first_free (other : isDigit b = false) (plus : b ≠ 43) {entry : StepEntry} : b ∉ entry.first := by
  unfold StepEntry.first
  split <;> simp [decimal_free other,plus]

theorem second_free (other : isDigit b = false) (plus : b ≠ 43) (batchStep : b ∉ batchText) (externStep : b ∉ externText)
    {entry : StepEntry} : b ∉ entry.second := by
  unfold StepEntry.second
  split <;> simp [decimal_free other,plus,step_free other batchStep externStep]

theorem text_free (other : isDigit b = false) (plus : b ≠ 43) (dot : b ≠ 46) (batchStep : b ∉ batchText)
    (externStep : b ∉ externText) (entry : Entry) : b ∉ entry.text := by
  cases entry with
  | step entry => simp [Entry.text,StepEntry.text,first_free other plus,second_free other plus batchStep externStep,dot]
  | bare job offset => cases offset <;> simp [Entry.text,decimal_free other,plus]

theorem bare_free (job : BitVec 32) (offset : Option (BitVec 32)) : 46 ∉ (Entry.bare job offset).text := by
  have dot : isDigit 46 = false := by decide
  cases offset <;> simp [Entry.text,decimal_free dot]

section Reading
variable {before after : Bytes}

theorem contains_false {text : Bytes} (free : b ∉ text) : text.contains b = false := by
  simpa using free

theorem contains_true {text : Bytes} (inside : b ∈ text) : text.contains b = true := by
  simpa using inside

def StepEntry.ids (entry : StepEntry) (before after : Bytes) : IdFields :=
  match entry.het with
  | .plain => ⟨before ++ decimal entry.job.toNat,entry.step.text ++ after,[],false⟩
  | .outside offset => ⟨before ++ decimal entry.job.toNat,entry.step.text ++ after,decimal offset.toNat,false⟩
  | .inside offset => ⟨before ++ decimal entry.job.toNat,entry.step.text,decimal offset.toNat ++ after,true⟩

theorem splitIds_entry (blankBefore : Blank before) (blankAfter : Blank after) {entry : StepEntry} :
    splitIds (before ++ entry.first) (entry.second ++ after) = entry.ids before after := by
  have plus : isDigit 43 = false := by decide
  have front : 43 ∉ before := blank_free (by decide) blankBefore
  have back : 43 ∉ after := blank_free (by decide) blankAfter
  have job : 43 ∉ before ++ decimal entry.job.toNat := by simp [front,decimal_free plus]
  have step : 43 ∉ entry.step.text := step_free plus (by decide) (by decide)
  unfold splitIds StepEntry.ids StepEntry.first StepEntry.second
  cases entry.het with
  | plain =>
    rw [contains_false job,contains_false (by simp [step,back])]
    rfl
  | outside offset =>
    have whole : splitTwo (before ++ (decimal entry.job.toNat ++ 43 :: decimal offset.toNat)) 43 =
        (before ++ decimal entry.job.toNat,decimal offset.toNat) := by
      rw [← append_assoc,splitTwo_free job (decimal_free plus)]
    simp only [whole]
    rw [contains_true (by simp)]
    rfl
  | inside offset =>
    have whole : splitTwo (entry.step.text ++ 43 :: decimal offset.toNat ++ after) 43 = (entry.step.text,decimal offset.toNat ++ after) := by
      rw [append_assoc,cons_append,splitTwo_free step (by simp [decimal_free plus,back])]
    simp only [whole]
    rw [contains_false job,contains_true (by simp)]
    rfl

theorem stoul_word (word : BitVec 32) (blankBefore : Blank before) (blankAfter : Blank after) :
    stoul (before ++ (decimal word.toNat ++ after)) = .ok word.toNat := by
  refine stoul_decimal (by omega) (fun b inside => isSpace_blank (blankBefore b inside)) fun b first => ?_
  cases digit : isDigit b with
  | false => rfl
  | true =>
    have blank := blankAfter b (mem_of_mem_head? first)
    rw [digit_not_blank digit] at blank
    cases blank

theorem stoul_front {word : BitVec 32} (blankBefore : Blank before) : stoul (before ++ decimal word.toNat) = .ok word.toNat := by
  simpa using @stoul_word before [] word blankBefore (by simp [Blank])

theorem stoul_back {word : BitVec 32} (blankAfter : Blank after) : stoul (decimal word.toNat ++ after) = .ok word.toNat := by
  simpa using @stoul_word [] after word (by simp [Blank]) blankAfter

theorem stoul_label (after : Bytes) : stoul (batchText ++ after) = .error "stoul" ∧ stoul (externText ++ after) = .error "stoul" :=
  ⟨rfl,rfl⟩

theorem number_label (n : Nat) (after : Bytes) : (decimal n ++ after == batchText) = false ∧ (decimal n ++ after == externText) = false := by
  cases digits : decimal n with
  | nil => exact absurd digits (decimal_ne n)
  | cons first rest =>
    have digit : isDigit first = true := decimal_digits (n := n) (digits ▸ mem_cons_self)
    refine ⟨beq_false_of_ne fun same => ?_,beq_false_of_ne fun same => ?_⟩
    · rw [(List.cons.inj same).1] at digit
      exact absurd digit (by decide)
    · rw [(List.cons.inj same).1] at digit
      exact absurd digit (by decide)

theorem numbers_number (blankBefore : Blank before) (blankAfter : Blank after) :
    ((StepEntry.mk job (.number n) het).ids before after).numbers = .ok ⟨job,n,het.offset,het.inSalloc,false,false⟩ := by
  have label := number_label n.toNat after
  have bare := number_label n.toNat []
  rw [append_nil] at bare
  cases het with
  | plain =>
    simp only [StepEntry.ids,IdFields.numbers,Step.text,stoul_front blankBefore,stoul_back blankAfter,label.1,label.2]
    simp [bind,Except.bind,pure,Except.pure,Het.offset,Het.inSalloc]
  | outside offset =>
    have number : stoul (decimal offset.toNat) = .ok offset.toNat := stoul_number (by omega)
    simp only [StepEntry.ids,IdFields.numbers,Step.text,stoul_front blankBefore,stoul_back blankAfter,label.1,label.2,number]
    simp [bind,Except.bind,pure,Except.pure,Het.offset,Het.inSalloc,decimal_ne]
  | inside offset =>
    have number : stoul (decimal n.toNat) = .ok n.toNat := stoul_number (by omega)
    simp only [StepEntry.ids,IdFields.numbers,Step.text,stoul_front blankBefore,stoul_back blankAfter,bare.1,bare.2,number]
    simp [bind,Except.bind,pure,Except.pure,Het.offset,Het.inSalloc,decimal_ne]

theorem numbers_label (blankBefore : Blank before)
    (label : step = .batchStep ∨ step = .externStep) : ((StepEntry.mk job step het).ids before after).numbers = .error "stoul" := by
  have bare := stoul_label []
  rw [append_nil,append_nil] at bare
  rcases label with rfl | rfl
  · cases het <;> simp [StepEntry.ids,IdFields.numbers,Step.text,stoul_front blankBefore,(stoul_label after).1,bare.1,bind,Except.bind]
  · cases het <;> simp [StepEntry.ids,IdFields.numbers,Step.text,stoul_front blankBefore,(stoul_label after).2,bare.2,bind,Except.bind]

theorem second_ne (entry : StepEntry) : entry.second ++ after ≠ [] := by
  have step : entry.step.text ≠ [] := by
    cases entry.step with
    | number n => exact decimal_ne _
    | batchStep | externStep => exact cons_ne_nil _ _
  unfold StepEntry.second
  split <;> simp [step]

theorem parse_entry (blankBefore : Blank before) (blankAfter : Blank after) (entry : StepEntry) :
    (∀ id, (Entry.step entry).id = some id → parseSacctHetjobid (before ++ entry.text ++ after) = .ok id) ∧
      ((Entry.step entry).isWrapper = true → ∃ message, parseSacctHetjobid (before ++ entry.text ++ after) = .error message) := by
  have dot : isDigit 46 = false := by decide
  have front : 46 ∉ before ++ entry.first := by simp [first_free dot (by decide),blank_free (b := 46) (by decide) blankBefore]
  have back : 46 ∉ entry.second ++ after := by
    simp [second_free dot (by decide) (by decide) (by decide),blank_free (b := 46) (by decide) blankAfter]
  have parts : before ++ entry.text ++ after = (before ++ entry.first) ++ 46 :: (entry.second ++ after) := by simp [StepEntry.text]
  unfold parseSacctHetjobid
  simp only [parts,splitTwo_free front back,second_ne entry,if_false,splitIds_entry blankBefore blankAfter]
  obtain ⟨job,step,het⟩ := entry
  cases step with
  | number n =>
    refine ⟨fun id same => ?_,nofun⟩
    cases same
    rw [numbers_number blankBefore blankAfter]
  | batchStep =>
    refine ⟨nofun,fun _ => ?_⟩
    rw [numbers_label blankBefore (.inl rfl)]
    exact ⟨_,rfl⟩
  | externStep =>
    refine ⟨nofun,fun _ => ?_⟩
    rw [numbers_label blankBefore (.inr rfl)]
    exact ⟨_,rfl⟩

end Reading

section Selecting
variable {line : Bytes}

def Entry.dotted : Entry → Option StepEntry
  | .step entry => some entry
  | .bare _ _ => none

def Selects (select : Bytes → Option Bytes) (line : Bytes) (item : Option Entry) : Prop :=
  match item.bind Entry.dotted with
  | none => select line = none
  | some entry => ∃ before after, Blank before ∧ Blank after ∧ select line = some (before ++ entry.text ++ after)

theorem nil_blank : Blank [] := by simp [Blank]

theorem trimmed_parts (line : Bytes) : ∃ indent tail, Blank indent ∧ Blank tail ∧ line = indent ++ removeLeadingWhitespace line ++ tail := by
  refine ⟨line.takeWhile isBlank,(line.dropWhile isBlank).rtakeWhile isBlank,fun b inside => mem_takeWhile_imp inside,
    fun b inside => mem_rtakeWhile_imp inside,?_⟩
  rw [removeLeadingWhitespace,append_assoc,rdropWhile_append_rtakeWhile,takeWhile_append_dropWhile]

theorem text_parts (entry : StepEntry) : ∃ first middle last, entry.text = first :: middle ++ [last] ∧
    isBlank first = false ∧ isBlank last = false := by
  have blanks : ∀ b, isBlank b = true → b ∉ entry.text := by
    intro b blank
    refine text_free ?_ ?_ ?_ ?_ ?_ (.step entry)
    · cases digit : isDigit b with
      | false => rfl
      | true =>
        rw [digit_not_blank digit] at blank
        cases blank
    all_goals
      simp only [isBlank,decide_eq_true_eq] at blank
      rcases blank with rfl | rfl <;> decide
  have kept : ∀ b ∈ entry.text, isBlank b = false := by
    intro b inside
    cases blank : isBlank b with
    | false => rfl
    | true => exact absurd inside (blanks b blank)
  have two : 2 ≤ entry.text.length := by
    have some' := length_pos_iff.mpr (@second_ne [] entry)
    have head : 0 < entry.first.length := by
      refine length_pos_iff.mpr ?_
      unfold StepEntry.first
      split <;> simp [decimal_ne]
    simp only [StepEntry.text,length_append,length_cons]
    omega
  cases text : entry.text with
  | nil => simp [text] at two
  | cons first rest =>
    rcases eq_nil_or_concat' rest with rfl | ⟨middle,last,rfl⟩
    · simp [text] at two
    · refine ⟨first,middle,last,by simp,kept first (by simp [text]),kept last (by simp [text])⟩

theorem dot_inside (entry : StepEntry) : 46 ∈ entry.text := by simp [StepEntry.text]

theorem undotted {indent tail : Bytes} (before : Blank indent) (after : Blank tail) (free : 46 ∉ middle) : 46 ∉ indent ++ middle ++ tail := by
  simp [blank_free (b := 46) (by decide) before,blank_free (b := 46) (by decide) after,free]

theorem selects_plain (form : PlainLine line item) : Selects selectPlaintext line item := by
  cases form with
  | id before after entry =>
    cases entry with
    | step entry =>
      refine ⟨_,_,before,after,?_⟩
      have inside : 46 ∈ entry.text := dot_inside entry
      simp [selectPlaintext,Entry.text,inside]
    | bare job offset =>
      exact if_neg fun inside => undotted before after (bare_free job offset) (contains_iff_mem.mp inside)
  | other unlike => simp [Selects,selectPlaintext,unlike]

def closing (comma : Bool) : Bytes := if comma then [34,44] else [34]

theorem trim_quoted {indent tail : Bytes} (before : Blank indent) (after : Blank tail) {first : UInt8} (kept : isBlank first = false)
    (middle : Bytes) (comma : Bool) : removeLeadingWhitespace (indent ++ (first :: middle ++ closing comma) ++ tail) =
      first :: middle ++ closing comma := by
  cases comma with
  | false => exact trim_text before kept (by decide) middle after
  | true =>
    have parts : first :: middle ++ closing true = first :: (middle ++ [34]) ++ [44] := by simp [closing]
    rw [parts]
    exact trim_text before kept (by decide) (middle ++ [34]) after

theorem select_quoted {indent tail : Bytes} (before : Blank indent) (after : Blank tail) (dot : 46 ∈ text)
    (colon : 58 ∉ text) (comma : Bool) : selectJson (indent ++ (ascii "\"id\": \"" ++ text ++ closing comma) ++ tail) = some text := by
  have trimmed : removeLeadingWhitespace (indent ++ (ascii "\"id\": \"" ++ text ++ closing comma) ++ tail) =
      ascii "\"id\"" ++ 58 :: (32 :: 34 :: text ++ closing comma) := by
    have opening : ascii "\"id\": \"" = [34,105,100,34,58,32,34] := by decide
    have key : ascii "\"id\"" = [34,105,100,34] := by decide
    have read := @trim_quoted indent tail before after 34 (by decide) ([105,100,34,58,32,34] ++ text) comma
    rw [opening,key]
    simpa only [cons_append,nil_append] using read
  have value : removeLeadingWhitespace (32 :: 34 :: text ++ closing comma) = 34 :: text ++ closing comma := by
    have quoted := @trim_quoted [32] [] (by simp [Blank,isBlank]) nil_blank 34 (by decide) text comma
    simpa using quoted
  have free : 58 ∉ 32 :: 34 :: text ++ closing comma := by cases comma <;> simp [colon,closing]
  have inside : (indent ++ (ascii "\"id\": \"" ++ text ++ closing comma) ++ tail).contains 46 = true := contains_true (by simp [dot])
  unfold selectJson
  rw [if_pos inside]
  simp only [trimmed,splitTwo_free (by decide : (58 : UInt8) ∉ ascii "\"id\"") free,value]
  have quoted : (if (34 :: text ++ closing comma).getLast? = some 44 then (34 :: text ++ closing comma).dropLast
      else 34 :: text ++ closing comma) = 34 :: text ++ [34] := by
    cases comma with
    | false =>
      have ends : (34 :: text ++ closing false).getLast? = some 34 := getLast?_concat
      rw [ends]
      rfl
    | true =>
      have parts : 34 :: text ++ closing true = (34 :: text ++ [34]) ++ [44] := by simp [closing]
      rw [parts,getLast?_concat,if_pos rfl,dropLast_concat]
  have ends : (34 :: text ++ [34]).getLast? = some 34 := getLast?_concat
  rw [quoted,if_neg]
  · simp
  · rintro (wrong | wrong | wrong | wrong)
    · exact wrong rfl
    · simp only [length_append,length_cons] at wrong
      omega
    · exact wrong rfl
    · exact wrong ends

theorem selects_json (form : JsonLine line item) : Selects selectJson line item := by
  cases form with
  | @id indent tail before after entry comma =>
    cases entry with
    | step entry =>
      have colon : 58 ∉ entry.text := text_free (by decide) (by decide) (by decide) (by decide) (by decide) (.step entry)
      refine ⟨[],[],nil_blank,nil_blank,?_⟩
      rw [append_nil]
      exact select_quoted before after (dot_inside entry) colon comma
    | bare job offset =>
      have start : 46 ∉ ascii "\"id\": \"" := by decide
      refine if_neg fun inside => undotted before after ?_ (contains_iff_mem.mp inside)
      cases comma <;> simp [bare_free job offset,start]
  | other unlike =>
    change selectJson line = none
    unfold selectJson
    split
    · rename_i inside
      have inside : 46 ∈ line := by simpa using inside
      have unlike := unlike.resolve_left (not_not.mpr inside)
      obtain ⟨indent,tail,before,after,parts⟩ := trimmed_parts line
      by_cases colon : 58 ∈ removeLeadingWhitespace line
      · obtain ⟨key,value,core,free⟩ := eq_append_cons_of_mem colon
        have other : (splitTwo (removeLeadingWhitespace line) 58).1 ≠ ascii "\"id\"" := by
          rw [core,splitTwo_first free]
          rintro rfl
          refine unlike indent (value ++ tail) before ?_
          rw [parts,core]
          simp [ascii]
        exact if_pos (.inl other)
      · have empty : (splitTwo (removeLeadingWhitespace line) 58).2 = [] := by
          unfold splitTwo
          rw [takeField_free colon]
          rfl
        have nothing : removeLeadingWhitespace [] = [] := rfl
        simp only [empty,nothing]
        exact if_pos (.inr (.inl (by decide)))
    · rfl

theorem splitString_absent (absent : delim ∉ text) (count : Nat) :
    (splitString (count + 2) text delim).getD 0 [] = text ∧ (splitString (count + 2) text delim).getD 1 [] = [] := by
  have ended : takeField delim ([],false) = ([],[],false) := rfl
  unfold splitString
  simp only [splitFields,takeField_free absent,ended]
  cases count with
  | zero | succ count => exact ⟨rfl,rfl⟩

theorem splitString_inv {count : Nat} {delim : UInt8} {text : Bytes} (more : (splitString (count + 2) text delim).getD 1 [] ≠ []) :
    ∃ after, text = (splitString (count + 2) text delim).getD 0 [] ++ delim :: after ∧
      ∀ k, (splitString (count + 2) text delim).getD (k + 1) [] = (splitString (count + 1) after delim).getD k [] := by
  by_cases inside : delim ∈ text
  · obtain ⟨left,right,rfl,free⟩ := eq_append_cons_of_mem inside
    rw [splitString_sep free]
    exact ⟨right,rfl,fun k => rfl⟩
  · exact absurd (splitString_absent inside count).2 more

theorem selects_yaml (form : YamlLine line item) : Selects selectYaml line item := by
  have opening : ascii "!!str id: !!str " = ascii "!!str" ++ 32 :: (ascii "id:" ++ 32 :: (ascii "!!str" ++ [32])) := by decide
  cases form with
  | @id indent tail before after entry =>
    cases entry with
    | step entry =>
      refine ⟨[],[],nil_blank,nil_blank,?_⟩
      rw [append_nil]
      obtain ⟨first,middle,last,text,_,kept⟩ := text_parts entry
      have trimmed : removeLeadingWhitespace (indent ++ (ascii "!!str id: !!str " ++ entry.text) ++ tail) =
          ascii "!!str id: !!str " ++ entry.text := by
        have letters : ascii "!!str id: !!str " = 33 :: (ascii "!str id: !!str ") := by decide
        rw [text,letters]
        have trim := @trim_text indent tail before 33 (by decide) last kept (ascii "!str id: !!str " ++ first :: middle) after
        simpa using trim
      have blank : 32 ∉ entry.text := text_free (by decide) (by decide) (by decide) (by decide) (by decide) (.step entry)
      have fields : splitString 4 (ascii "!!str id: !!str " ++ entry.text) 32 = [ascii "!!str",ascii "id:",ascii "!!str",entry.text] := by
        rw [opening]
        simp only [append_assoc,cons_append,nil_append]
        rw [splitString_sep (by decide),splitString_sep (by decide),splitString_sep (by decide),splitString_last blank]
      have inside : (indent ++ (ascii "!!str id: !!str " ++ entry.text) ++ tail).contains 46 = true :=
        contains_true (by simp [dot_inside entry])
      unfold selectYaml
      rw [Entry.text,if_pos inside,trimmed,fields]
      rfl
    | bare job offset =>
      have start : 46 ∉ ascii "!!str id: !!str " := by decide
      refine if_neg fun inside => undotted before after ?_ (contains_iff_mem.mp inside)
      simp [bare_free job offset,start]
  | other unlike =>
    change selectYaml line = none
    unfold selectYaml
    split
    · rename_i inside
      have inside : 46 ∈ line := by simpa using inside
      have unlike := unlike.resolve_left (not_not.mpr inside)
      obtain ⟨indent,tail,before,after,parts⟩ := trimmed_parts line
      refine if_pos ?_
      by_contra alike
      simp only [not_or,not_not] at alike
      obtain ⟨one,two,three⟩ := alike
      obtain ⟨rest,start,fields⟩ := @splitString_inv 2 32 (removeLeadingWhitespace line) (by rw [two]; decide)
      obtain ⟨rest',next,fields'⟩ := @splitString_inv 1 32 rest (by rw [← fields,three]; decide)
      rw [one] at start
      rw [← fields,two] at next
      rw [fields,fields'] at three
      by_cases blank : 32 ∈ rest'
      · obtain ⟨third,value,rfl,free⟩ := eq_append_cons_of_mem blank
        rw [splitString_sep free] at three
        refine unlike indent (value ++ tail) before ?_
        rw [parts,start,next,opening,← three]
        simp
      -- A line that ends with the third word has no dot.
      · rw [(splitString_absent blank 0).1] at three
        rw [parts,start,next,three] at inside
        exact absurd inside (undotted before after (by decide))
    · rfl

end Selecting

section Results

def Listing.Unwrapped (listing : Listing) : Prop := ∀ entry ∈ listing, entry.isWrapper = false

variable {select : Bytes → Option Bytes} {lines : List Bytes} {items : List (Option Entry)}

theorem readIds_line (selects : Selects select line item) : (∀ entry ∈ item, entry.isWrapper = false) ∧
      readIds select result (line :: rest) = readIds select (result ++ (item.bind Entry.id).toList) rest ∨
    (∃ entry ∈ item, entry.isWrapper = true) ∧ ∃ message, readIds select result (line :: rest) = .error message := by
  rw [readIds]
  cases item with
  | none =>
    have passed : select line = none := selects
    exact .inl ⟨by simp,by simp [passed]⟩
  | some entry =>
    cases entry with
    | bare job offset =>
      have passed : select line = none := selects
      exact .inl ⟨by simp [Entry.isWrapper],by simp [passed,Entry.id]⟩
    | step entry =>
      obtain ⟨before,after,blankBefore,blankAfter,selected⟩ := selects
      obtain ⟨numbered,wrapped⟩ := parse_entry blankBefore blankAfter entry
      simp only [selected]
      obtain ⟨job,step,het⟩ := entry
      cases step with
      | number n =>
        refine .inl ⟨by simp [Entry.isWrapper],?_⟩
        rw [numbered _ rfl]
        rfl
      | batchStep | externStep =>
        obtain ⟨message,failed⟩ := wrapped rfl
        exact .inr ⟨⟨_,rfl,rfl⟩,message,by rw [failed]; rfl⟩

theorem numbered_reduce :
    Listing.numbered (item :: items).reduceOption = (item.bind Entry.id).toList ++ Listing.numbered items.reduceOption := by
  cases item with
  | none => simp [Listing.numbered]
  | some entry => cases id : entry.id <;> simp [Listing.numbered,id]

theorem readIds_listing (shown : List.Forall₂ (Selects select) lines items) (result : List HetJobId) :
    Listing.Unwrapped items.reduceOption ∧ readIds select result lines = .ok (result ++ Listing.numbered items.reduceOption) ∨
    ¬ Listing.Unwrapped items.reduceOption ∧ ∃ message, readIds select result lines = .error message := by
  induction shown generalizing result with
  | nil => exact .inl ⟨by simp [Listing.Unwrapped],by simp [readIds,Listing.numbered]⟩
  | @cons line item lines items selects _ ih =>
    have inside : ∀ entry, entry ∈ (item :: items).reduceOption ↔ entry ∈ item ∨ entry ∈ items.reduceOption := by
      cases item <;> simp [eq_comm]
    rcases readIds_line selects with ⟨plain,read⟩ | ⟨⟨entry,own,wrapper⟩,failed⟩
    · rw [read,numbered_reduce,← append_assoc]
      rcases ih (result ++ (item.bind Entry.id).toList) with ⟨unwrapped,rest⟩ | ⟨wrapped,failed⟩
      · exact .inl ⟨fun entry listed => ((inside entry).mp listed).elim (plain entry) (unwrapped entry),rest⟩
      · exact .inr ⟨fun all => wrapped fun entry listed => all entry ((inside entry).mpr (.inr listed)),failed⟩
    · refine .inr ⟨fun all => ?_,failed⟩
      rw [all entry ((inside entry).mpr (.inl own))] at wrapper
      cases wrapper

variable {answer : Answer} {listing : Listing}

theorem runSacct_failed (failed : answer.status ≠ 0) : runSacct select answer = [] := by
  unfold runSacct
  split
  · rfl
  · rw [if_pos failed]

section
variable (selects : ∀ line item, Line line item → Selects select line item) (shows : answer.status = 0 → Shows Line answer listing)
include selects shows

theorem runSacct_wrapped (wrapped : ¬ listing.Unwrapped) : runSacct select answer = [] := by
  by_cases succeeded : answer.status = 0
  · obtain ⟨items,forms,rfl⟩ := shows succeeded
    rcases readIds_listing (forms.imp (fun line item => selects line item)) [] with ⟨unwrapped,_⟩ | ⟨_,message,failed⟩
    · exact absurd unwrapped wrapped
    · rw [runSacct,failed]
  · exact runSacct_failed succeeded

theorem runSacct_unwrapped (unwrapped : listing.Unwrapped) :
    runSacct select answer = if answer.status = 0 then listing.numbered else [] := by
  by_cases succeeded : answer.status = 0
  · obtain ⟨items,forms,rfl⟩ := shows succeeded
    rcases readIds_listing (forms.imp (fun line item => selects line item)) [] with ⟨_,read⟩ | ⟨wrapped,_⟩
    · simp [runSacct,read,succeeded]
    · exact absurd unwrapped wrapped
  · rw [runSacct_failed succeeded,if_neg succeeded]

end

theorem attempt_wrapped {attempt : Attempt} (reports : attempt.Reports listing) (wrapped : ¬ listing.Unwrapped) : attempt.result = [] := by
  simp [Attempt.result,runSacct_wrapped (fun _ _ => selects_json) reports.json wrapped,
    runSacct_wrapped (fun _ _ => selects_yaml) reports.yaml wrapped,runSacct_wrapped (fun _ _ => selects_plain) reports.plaintext wrapped]

theorem attempt_unwrapped {attempt : Attempt} (reports : attempt.Reports listing) (unwrapped : listing.Unwrapped) :
    attempt.result = listing.numbered := by
  have json := runSacct_unwrapped (fun _ _ => selects_json) reports.json unwrapped
  have yaml := runSacct_unwrapped (fun _ _ => selects_yaml) reports.yaml unwrapped
  have plaintext := runSacct_unwrapped (fun _ _ => selects_plain) reports.plaintext unwrapped
  unfold Attempt.result
  rw [json,yaml,plaintext]
  by_cases empty : listing.numbered = []
  · simp [empty]
  · have some' : listing.numbered.isEmpty = false := by simpa using empty
    by_cases first : attempt.json.status = 0
    · simp [first,some']
    · by_cases second : attempt.yaml.status = 0
      · simp [first,second,some']
      · have third := (reports.succeeds.resolve_left first).resolve_left second
        simp [first,second,third]

theorem retry_wrapped (reports : ∀ attempt ∈ attempts, attempt.Reports listing) (wrapped : ¬ listing.Unwrapped) :
    retryAttempts attempts = [] := by
  induction attempts with
  | nil => rfl
  | cons attempt rest ih =>
    have none' := attempt_wrapped (reports attempt mem_cons_self) wrapped
    have later := ih fun other inside => reports other (mem_cons_of_mem _ inside)
    simp [retryAttempts,none',later]

theorem numbered_kept : listing.numbered.filter (!·.wrapper) = listing.numbered := by
  refine filter_eq_self.mpr fun id inside => ?_
  obtain ⟨entry,_,own⟩ := mem_filterMap.mp inside
  unfold Entry.id at own
  split at own
  · cases own
    rfl
  · cases own

end Results

def jsonText (entry : Entry) : Bytes := ascii "      " ++ (ascii "\"id\": \"" ++ entry.text ++ [34,44]) ++ []

def yamlText (entry : Entry) : Bytes := ascii "  " ++ (ascii "!!str id: !!str " ++ entry.text) ++ []

def plainText (entry : Entry) : Bytes := [] ++ entry.text ++ ascii "  "

def Listing.printed (listing : Listing) : Attempt :=
  ⟨⟨listing.map jsonText,0⟩,⟨listing.map yamlText,0⟩,⟨listing.map plainText,0⟩,true⟩

theorem shows_map (prints : ∀ entry, Line (print entry) (some entry)) : Shows Line ⟨listing.map print,status⟩ listing := by
  refine ⟨listing.map some,?_,?_⟩
  · rw [forall₂_map_left_iff,forall₂_map_right_iff,forall₂_same]
    exact fun entry _ => prints entry
  · induction listing with
    | nil => rfl
    | cons entry rest ih => simp [ih]

theorem printed_reports {listing : Listing} : listing.printed.Reports listing := by
  have spaces : Blank (ascii "      ") ∧ Blank (ascii "  ") := by unfold Blank; decide +kernel
  exact ⟨fun _ => shows_map (fun entry => .id spaces.1 nil_blank entry true),
    fun _ => shows_map (fun entry => .id spaces.2 nil_blank entry),
    fun _ => shows_map (fun entry => .id nil_blank spaces.2 entry),.inl rfl⟩

def threeForms : Listing :=
  [.bare 123 none,.step ⟨123,.number 0,.plain⟩,.step ⟨123,.number 0,.outside 1⟩,.step ⟨123,.number 0,.inside 2⟩]

-- The wrapper step that a site with PrologFlags=contain starts with every job.
def contained : Listing := [.step ⟨123,.number 0,.plain⟩,.step ⟨123,.externStep,.plain⟩]

end CommonTools.Slurm
