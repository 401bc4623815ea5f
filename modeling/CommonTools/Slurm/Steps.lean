import Mathlib.Data.List.Infix
import CommonTools.Slurm.JobIds

namespace CommonTools.Slurm
open Numerals Texts FeDaemon List

inductive JobStepStatus where
  | Running
  | NotRunning
  | Error
  deriving DecidableEq

-- std::string::rfind: where the last occurrence starts.
def rfind (needle : Bytes) : Bytes → Option Nat
  | [] => if needle = [] then some 0 else none
  | b :: rest =>
    match rfind needle rest with
    | some i => some (i + 1)
    | none => if needle.isPrefixOf (b :: rest) then some 0 else none

def runningNeedle (jobId : Bytes) : Bytes := ascii "RUNNING|" ++ jobId ++ [46]

-- A line of the job for the provided step, or for one whose label is not numeric.
def stepLine (jobId stepId line : Bytes) : Bool :=
  (runningNeedle jobId).isPrefixOf line &&
    (let potentialStepId := line.drop (runningNeedle jobId).length
     rfind stepId potentialStepId == some 0 || !potentialStepId.all fun c => isDigit c || c == 32)

def jobStepRunning (squeue : Answer) (registered : Bool) (jobId stepId : Bytes) : JobStepStatus :=
  let got_output := !squeue.lines.isEmpty
  let got_jobstep := squeue.lines.any (stepLine jobId stepId)
  if squeue.status ≠ 0 then .Error
  else if !got_output && !registered then .Error
  else if got_jobstep then .Running else .NotRunning

def jobStepZeroStarted (squeue : Answer) (registered : Bool) (jobId : Bytes) : Except Bytes Bool :=
  match jobStepRunning squeue registered jobId (ascii "0") with
  | .Error => .error (ascii "checking status of job " ++ jobId ++ ascii ".0 failed\n")
  | status => .ok (status == .Running)

-- StepState:7|,StepID: the state cut or filled to seven characters, and the id with
-- blanks behind it.
structure QueueLine where
  state : Bytes
  job : Bytes
  step : Bytes
  blanks : Nat
  stateWidth : state.length = 7
  jobText : 46 ∉ job
  stepText : 32 ∉ step

def QueueLine.text (line : QueueLine) : Bytes :=
  line.state ++ 124 :: (line.job ++ 46 :: (line.step ++ List.replicate line.blanks 32))

def Numeric (step : Bytes) : Prop := ∀ b ∈ step, isDigit b = true

instance (step : Bytes) : Decidable (Numeric step) := inferInstanceAs (Decidable (∀ b ∈ step, isDigit b = true))

structure QueueLine.Belongs (line : QueueLine) (job : Nat) : Prop where
  state : line.state = ascii "RUNNING"
  job : line.job = decimal job

structure QueueLine.Counts (line : QueueLine) (job s : Nat) : Prop where
  belongs : line.Belongs job
  step : line.step = decimal s ∨ ¬ Numeric line.step

-- A longer number, in which the digits of s come at the start and not again.
structure QueueLine.Misleads (line : QueueLine) (job s : Nat) : Prop where
  belongs : line.Belongs job
  numeric : Numeric line.step
  longer : line.step ≠ decimal s
  start : decimal s <+: line.step
  once : ¬ decimal s <:+: line.step.tail

def queueAnswer (lines : List QueueLine) (status : Int) : Answer := ⟨lines.map QueueLine.text,status⟩

section Searching
variable {needle : Bytes}

theorem rfind_none : rfind needle text = none ↔ ¬ needle <:+: text := by
  induction text with
  | nil => by_cases empty : needle = [] <;> simp [rfind,empty]
  | cons b rest ih =>
    rw [rfind,infix_cons_iff]
    cases found : rfind needle rest with
    | none =>
      rw [found] at ih
      simp only [true_iff] at ih
      by_cases front : needle <+: b :: rest
      · simp [List.isPrefixOf_iff_prefix.mpr front,front]
      · simp [List.isPrefixOf_iff_prefix,front,ih]
    | some i =>
      rw [found] at ih
      simp only [reduceCtorEq,false_iff,not_not] at ih
      simp [ih]

theorem rfind_zero (some' : needle ≠ []) {text : Bytes} : rfind needle text = some 0 ↔ needle <+: text ∧ ¬ needle <:+: text.tail := by
  cases text with
  | nil => simp [rfind,some']
  | cons b rest =>
    rw [rfind,tail_cons,← rfind_none]
    cases found : rfind needle rest with
    | none => simp [List.isPrefixOf_iff_prefix]
    | some i => simp

theorem prefix_blanks (word : ∀ b ∈ needle, b ≠ 32) (text : Bytes) (blanks : Nat) :
    needle.isPrefixOf (text ++ List.replicate blanks 32) = needle.isPrefixOf text := by
  induction needle generalizing text with
  | nil => simp
  | cons first rest ih =>
    cases text with
    | nil =>
      cases blanks with
      | zero => rfl
      | succ blanks =>
        have other : first ≠ 32 := word first mem_cons_self
        simp [replicate_succ,isPrefixOf,other]
    | cons b text => simp [isPrefixOf,ih fun b inside => word b (mem_cons_of_mem _ inside)]

theorem rfind_blanks (some' : needle ≠ []) (word : ∀ b ∈ needle, b ≠ 32) {text : Bytes} {blanks : Nat} :
    rfind needle (text ++ List.replicate blanks 32) = rfind needle text := by
  induction text with
  | nil =>
    have none' : ¬ needle <:+: List.replicate blanks 32 := by
      intro inside
      obtain ⟨b,rest,rfl⟩ := exists_cons_of_ne_nil some'
      exact word b mem_cons_self (eq_of_mem_replicate (inside.subset mem_cons_self))
    rw [nil_append,rfind_none.mpr none',rfind,if_neg some']
  | cons b text ih =>
    have front := prefix_blanks word (b :: text) blanks
    rw [cons_append] at front ⊢
    rw [rfind,rfind,ih,front]

end Searching

section Exactness
variable (line : QueueLine) (job s : Nat)

theorem needle_line : runningNeedle (decimal job) <+: line.text ↔ line.Belongs job := by
  have dot : 46 ∉ decimal job := decimal_free (by decide)
  have letters : ascii "RUNNING|" = ascii "RUNNING" ++ [124] := by decide
  have needle : runningNeedle (decimal job) = ascii "RUNNING" ++ 124 :: (decimal job ++ [46]) := by simp [runningNeedle,letters]
  rw [needle]
  constructor
  · intro start
    obtain ⟨after,whole⟩ := start
    simp only [QueueLine.text,append_assoc,cons_append,nil_append] at whole
    obtain ⟨state,rest⟩ := append_inj whole (by rw [line.stateWidth]; decide)
    obtain ⟨own,_⟩ := append_sep_inj dot line.jobText (List.cons.inj rest).2
    exact ⟨state.symm,own.symm⟩
  · intro belongs
    rw [QueueLine.text,belongs.state,belongs.job]
    exact ⟨line.step ++ List.replicate line.blanks 32,by simp⟩

theorem potential_step {line : QueueLine} {job : Nat} (belongs : line.Belongs job) :
    line.text.drop (runningNeedle (decimal job)).length = line.step ++ List.replicate line.blanks 32 := by
  have letters : ascii "RUNNING|" = ascii "RUNNING" ++ [124] := by decide
  have whole : line.text = runningNeedle (decimal job) ++ (line.step ++ List.replicate line.blanks 32) := by
    simp [QueueLine.text,belongs.state,belongs.job,runningNeedle,letters]
  rw [whole,drop_left]

theorem numeric_blanks : (line.step ++ List.replicate line.blanks 32).all (fun c => isDigit c || c == 32) = true ↔ Numeric line.step := by
  rw [all_append,Bool.and_eq_true,all_eq_true,all_eq_true]
  constructor
  · intro all b inside
    have other : b ≠ 32 := fun same => line.stepText (same ▸ inside)
    simpa [other] using all.1 b inside
  · intro numeric
    refine ⟨fun b inside => by simp [numeric b inside],fun b inside => ?_⟩
    simp [eq_of_mem_replicate inside]

theorem stepLine_iff : stepLine (decimal job) (decimal s) line.text = true ↔ line.Counts job s ∨ line.Misleads job s := by
  rw [stepLine,Bool.and_eq_true,List.isPrefixOf_iff_prefix,needle_line]
  by_cases belongs : line.Belongs job
  · have zero : rfind (decimal s) (line.step ++ List.replicate line.blanks 32) = some 0 ↔
        decimal s <+: line.step ∧ ¬ decimal s <:+: line.step.tail := by
      rw [rfind_blanks (decimal_ne s) (fun b inside same => decimal_free (by decide) (same ▸ inside)),rfind_zero (decimal_ne s)]
    simp only [potential_step belongs,Bool.or_eq_true,beq_iff_eq,zero,Bool.not_eq_true',← Bool.not_eq_true,numeric_blanks]
    constructor
    · rintro ⟨_,⟨start,once⟩ | label⟩
      · by_cases same : line.step = decimal s
        · exact .inl ⟨belongs,.inl same⟩
        · by_cases numeric : Numeric line.step
          · exact .inr ⟨belongs,numeric,same,start,once⟩
          · exact .inl ⟨belongs,.inr numeric⟩
      · exact .inl ⟨belongs,.inr label⟩
    · rintro (counts | misleads)
      · refine ⟨belongs,counts.step.imp (fun same => ?_) fun label => label⟩
        rw [same]
        refine ⟨prefix_rfl,fun again => ?_⟩
        have short := again.length_le
        have positive := length_pos_iff.mpr (decimal_ne s)
        rw [length_tail] at short
        omega
      · exact ⟨belongs,.inl ⟨misleads.start,misleads.once⟩⟩
  · refine ⟨fun both => absurd both.1 belongs,fun either => ?_⟩
    exact absurd (either.elim QueueLine.Counts.belongs QueueLine.Misleads.belongs) belongs

theorem running_iff : jobStepRunning (queueAnswer lines status) registered (decimal job) (decimal s) = .Running ↔
      status = 0 ∧ ∃ line ∈ lines, line.Counts job s ∨ line.Misleads job s := by
  have found : (queueAnswer lines status).lines.any (stepLine (decimal job) (decimal s)) = true ↔
      ∃ line ∈ lines, line.Counts job s ∨ line.Misleads job s := by
    simp only [queueAnswer,any_map,any_eq_true,Function.comp_apply,stepLine_iff]
  unfold jobStepRunning
  by_cases succeeded : status = 0
  · rw [← found]
    simp only [queueAnswer,succeeded,ne_eq,not_true_eq_false,if_false,true_and]
    cases lines with
    | nil => cases registered <;> simp
    | cons line lines => by_cases here : stepLine (decimal job) (decimal s) line.text = true <;> simp [here]
  · simp [queueAnswer,succeeded]

theorem decimal_head (positive : 0 < n) : (decimal n).head? ≠ some 48 := by
  induction n using Nat.strongRecOn with
  | ind n ih =>
    by_cases small : n < 10
    · have digits : ∀ k : Fin 10, 0 < k.val → UInt8.ofNat (Nat.digitChar k.val).toNat ≠ 48 := by decide
      rw [decimal,Nat.toDigits_of_lt_base small]
      simpa using digits ⟨n,small⟩ positive
    · have fewer := ih (n / 10) (by omega) (by omega)
      obtain ⟨first,rest,digits⟩ := exists_cons_of_ne_nil (decimal_ne (n / 10))
      have front : decimal n = decimal (n / 10) ++ [UInt8.ofNat (Nat.digitChar (n % 10)).toNat] := by
        rw [decimal,Nat.toDigits_of_base_le (by decide) (by omega),map_append]
        rfl
      rw [digits] at fewer front
      rw [front]
      exact fewer

end Exactness

def tenthStep : QueueLine := ⟨ascii "RUNNING",decimal 123,decimal 10,8,by decide,by decide,by decide⟩

end CommonTools.Slurm
