import CommonTools.Slurm.Texts
import CommonTools.Library.Scanning

namespace CommonTools.Pals
open Numerals Scanning Texts FeDaemon List
open Slurm (Blank isBlank removeLeadingWhitespace dropWhile_blank)

-- `Var: Val`, cut at the first colon with a blank behind it.
def field (line : Bytes) : Option (Bytes × Bytes) :=
  (search [58,32] line).map fun found => (removeLeadingWhitespace found.1,found.2)

def scanApid (pbsJobId : Bytes) : List Bytes → Bytes → Bool × Bytes
  | [],parsedApid => (false,parsedApid)
  | line :: rest,parsedApid =>
    match field line with
    | none => scanApid pbsJobId rest parsedApid
    | some (var,val) =>
      if var = ascii "APID" then scanApid pbsJobId rest (removeLeadingWhitespace val)
      else if var = ascii "JobID" then
        if pbsJobId.isPrefixOf (removeLeadingWhitespace val) then (true,parsedApid) else scanApid pbsJobId rest parsedApid
      else scanApid pbsJobId rest parsedApid

def findApidFromJobid (palstat : Bytes) (exit : Except Bytes Nat) (execHost pbsJobId : Bytes) : Except Bytes Bytes :=
  let (foundApid,parsedApid) := scanApid pbsJobId (byteLines [] palstat) []
  match exit with
  | .error message => .error message
  | .ok palstatRc =>
    if palstatRc ≠ 0 then .error (ascii "`palstat --node " ++ execHost ++ ascii "` failed with code " ++ decimal palstatRc)
    else if !foundApid || parsedApid.isEmpty then
      .error (ascii "invalid PBS job id " ++ pbsJobId ++ ascii " for host " ++ execHost ++
        ascii ". Check for this job by running `palstat --node " ++ execHost ++ ascii "`")
    else .ok parsedApid

structure VarLine (var : Bytes) where
  indent : Bytes
  val : Bytes
  blank : Blank indent
  single : newline ∉ val

def VarLine.text (line : VarLine var) : Bytes := line.indent ++ var ++ 58 :: 32 :: line.val

def VarLine.meant (line : VarLine var) : Bytes := removeLeadingWhitespace line.val

structure OtherLine where
  text : Bytes
  single : newline ∉ text
  other : ∀ found, field text = some found → found.1 ≠ ascii "APID" ∧ found.1 ≠ ascii "JobID"

structure PalsRecord where
  before : List OtherLine
  apidLine : VarLine (ascii "APID")
  between : List OtherLine
  jobLine : VarLine (ascii "JobID")
  after : List OtherLine
  named : apidLine.meant ≠ []

def PalsRecord.lines (record : PalsRecord) : List Bytes :=
  record.before.map OtherLine.text ++ record.apidLine.text :: (record.between.map OtherLine.text ++
    record.jobLine.text :: record.after.map OtherLine.text)

def PalsRecord.apid (record : PalsRecord) : Bytes := record.apidLine.meant

def PalsRecord.jobId (record : PalsRecord) : Bytes := record.jobLine.meant

def palstat (records : List PalsRecord) : Bytes := (records.flatMap PalsRecord.lines).flatMap (· ++ [newline])

def PalsRecord.Belongs (record : PalsRecord) (pbsJobId : Bytes) : Prop :=
  record.jobId = pbsJobId ∨ ∃ server, record.jobId = pbsJobId ++ 46 :: server

def Finds (records : List PalsRecord) (execHost pbsJobId : Bytes) : Prop :=
  ∀ exit apid, findApidFromJobid (palstat records) exit execHost pbsJobId = .ok apid →
    ∃ record ∈ records, record.apid = apid ∧ record.Belongs pbsJobId

section Lines
variable {pbsJobId : Bytes} {rest : List Bytes}

theorem blank_plain (blank : Blank indent) (plain : isBlank b = false) : b ∉ indent := by
  intro inside
  rw [blank b inside] at plain
  cases plain

theorem field_var (line : VarLine var) (free : 58 ∉ var) (trimmed : removeLeadingWhitespace var = var) :
    field line.text = some (var,line.val) := by
  have front : (58 : UInt8) ∉ line.indent ++ var := by
    rw [mem_append]
    exact not_or.mpr ⟨blank_plain line.blank (by decide),free⟩
  have name : removeLeadingWhitespace (line.indent ++ var) = var := by
    rw [removeLeadingWhitespace,dropWhile_blank line.blank]
    exact trimmed
  change (search (58 :: [32]) ((line.indent ++ var) ++ 58 :: ([32] ++ line.val))).map _ = _
  rw [search_front front,Option.map_some,name]

theorem scan_others (others : List OtherLine) :
    scanApid pbsJobId (others.map OtherLine.text ++ rest) parsed = scanApid pbsJobId rest parsed := by
  induction others with
  | nil => rfl
  | cons line others ih =>
    rw [map_cons,cons_append,scanApid]
    cases found : field line.text with
    | none => exact ih
    | some pair =>
      obtain ⟨apid,job⟩ := line.other pair found
      dsimp only
      rw [if_neg apid,if_neg job]
      exact ih

theorem scan_apid (line : VarLine (ascii "APID")) : scanApid pbsJobId (line.text :: rest) parsed = scanApid pbsJobId rest line.meant := by
  rw [scanApid,field_var line (by decide) (by decide)]
  exact if_pos rfl

theorem scan_job (line : VarLine (ascii "JobID")) : scanApid pbsJobId (line.text :: rest) parsed =
    if pbsJobId.isPrefixOf line.meant then (true,parsed) else scanApid pbsJobId rest parsed := by
  have other : ascii "JobID" ≠ ascii "APID" := by decide
  rw [scanApid,field_var line (by decide) (by decide)]
  dsimp only
  rw [if_neg other,if_pos rfl]
  rfl

theorem scan_record (record : PalsRecord) : scanApid pbsJobId (record.lines ++ rest) parsed =
    if pbsJobId.isPrefixOf record.jobId then (true,record.apid) else scanApid pbsJobId rest record.apid := by
  rw [PalsRecord.lines,append_assoc,scan_others,cons_append,scan_apid,append_assoc,scan_others,cons_append,scan_job]
  exact congrArg (ite _ _) (scan_others record.after)

theorem scan_records (pbsJobId : Bytes) (records : List PalsRecord) (parsed : Bytes) : ∃ last,
    scanApid pbsJobId (records.flatMap PalsRecord.lines) parsed =
      ((records.find? (pbsJobId.isPrefixOf ·.jobId)).elim (false,last) fun record => (true,record.apid)) := by
  induction records generalizing parsed with
  | nil => exact ⟨parsed,rfl⟩
  | cons record records ih =>
    obtain ⟨last,rest⟩ := ih record.apid
    refine ⟨last,?_⟩
    rw [flatMap_cons,scan_record,List.find?_cons]
    cases begins : pbsJobId.isPrefixOf record.jobId with
    | true => rfl
    | false => exact rest

theorem var_single (line : VarLine var) (free : newline ∉ var) : newline ∉ line.text := by
  have indent := blank_plain line.blank (b := newline) (by decide)
  have marks : newline ≠ 58 ∧ newline ≠ 32 := by decide
  simp [VarLine.text,indent,free,line.single,marks.1,marks.2]

theorem record_single (record : PalsRecord) (inside : line ∈ record.lines) : newline ∉ line := by
  have others : ∀ lines : List OtherLine, line ∈ lines.map OtherLine.text → newline ∉ line := by
    rintro lines listed
    obtain ⟨other,_,rfl⟩ := mem_map.mp listed
    exact other.single
  rw [PalsRecord.lines,mem_append,mem_cons,mem_append,mem_cons] at inside
  rcases inside with before | rfl | between | rfl | after
  · exact others _ before
  · exact var_single _ (by decide)
  · exact others _ between
  · exact var_single _ (by decide)
  · exact others _ after

end Lines

def firstBegun (records : List PalsRecord) (pbsJobId : Bytes) : Option PalsRecord :=
  records.find? (pbsJobId.isPrefixOf ·.jobId)

theorem findApid_iff : findApidFromJobid (palstat records) exit execHost pbsJobId = .ok apid ↔
    exit = .ok 0 ∧ ∃ record, firstBegun records pbsJobId = some record ∧ record.apid = apid := by
  have lines : byteLines [] (palstat records) = records.flatMap PalsRecord.lines := byteLines_written fun line inside => by
    obtain ⟨record,_,listed⟩ := mem_flatMap.mp inside
    exact record_single record listed
  obtain ⟨last,scanned⟩ := scan_records pbsJobId records []
  rw [findApidFromJobid,lines,scanned]
  cases exit with
  | error message => simp
  | ok rc =>
    by_cases zero : rc = 0
    · subst zero
      cases first : firstBegun records pbsJobId with
      | none =>
        rw [firstBegun] at first
        simp [first]
      | some record =>
        have named : record.apid ≠ [] := record.named
        rw [firstBegun] at first
        simp [first,named]
    · simp [zero]

def palsRecord (apid jobId : Bytes) (one : newline ∉ apid) (two : newline ∉ jobId) (named : removeLeadingWhitespace apid ≠ []) : PalsRecord :=
  ⟨[],⟨[],apid,by simp [Blank],one⟩,[],⟨[32],jobId,by simp [Blank]; decide,two⟩,[],named⟩

-- Job 1234 runs on the same host, and job 123 is looked for.
def twoJobs : List PalsRecord :=
  [palsRecord (ascii "a") (ascii "1234.pbs") (by decide) (by decide) (by decide),
    palsRecord (ascii "b") (ascii "123.pbs") (by decide) (by decide) (by decide)]

end CommonTools.Pals
