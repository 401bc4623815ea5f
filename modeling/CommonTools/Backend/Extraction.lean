import CommonTools.Backend.Daemon

namespace CommonTools.Backend
open Transfer List Daemon

inductive Failure where
  | retry
  | warn
  | failed
  | fatal
  deriving DecidableEq

def Failure.code : Failure → Int
  | .retry => -10
  | .warn => -20
  | .failed => -25
  | .fatal => -30

-- The answer of libarchive to a call: none stands for ARCHIVE_OK, or for ARCHIVE_EOF
-- to a read where there is nothing left.
abbrev Answer := Option Failure

structure Block where
  data : List UInt8
  read : Answer
  write : Answer
  deriving DecidableEq

structure Member where
  pathname : String
  readHeader : Answer
  writeHeader : Answer
  blocks : List Block
  dataEnd : Answer
  finishEntry : Answer
  deriving DecidableEq

structure Tarball where
  opened : Answer
  members : List Member
  last : Answer
  deriving DecidableEq

def copyData (dataEnd : Answer) : List Block → List (List UInt8) × Answer
  | [] => ([],dataEnd)
  | block :: rest =>
    match block.read with
    | some failure => ([],some failure)
    | none =>
      match block.write with
      | some failure => ([],some failure)
      | none => (block.data :: (copyData dataEnd rest).1,(copyData dataEnd rest).2)

abbrev Disk := List (String × List (List UInt8))

-- The loop of main, which is left with the exit status where it returns. Nobody looks at
-- what copy_data returns.
def extractMembers (last : Answer) : Disk → List Member → Except Int Disk
  | disk,[] => if last.isSome then .error 1 else .ok disk
  | disk,member :: rest =>
    if member.readHeader.isSome then .error 1
    else if member.writeHeader.isSome then .error 1
    else if member.finishEntry.isSome then .error 1
    else extractMembers last (disk ++ [(member.pathname,(copyData member.dataEnd member.blocks).1)]) rest

def Tarball.extract (tarball : Tarball) : Except Int Disk :=
  match tarball.opened with
  | some failure => .error failure.code
  | none => extractMembers tarball.last [] tarball.members

def Member.content (member : Member) : String × List (List UInt8) := (member.pathname,member.blocks.map Block.data)

def Tarball.contents (tarball : Tarball) : Disk := tarball.members.map Member.content

structure Member.Copied (member : Member) : Prop where
  blocks : ∀ block ∈ member.blocks, block.read = none ∧ block.write = none
  dataEnd : member.dataEnd = none

structure Member.Accepted (member : Member) : Prop where
  readHeader : member.readHeader = none
  writeHeader : member.writeHeader = none
  finishEntry : member.finishEntry = none

structure Tarball.Accepted (tarball : Tarball) : Prop where
  opened : tarball.opened = none
  members : ∀ member ∈ tarball.members, member.Accepted
  last : tarball.last = none

theorem copyData_answer : (copyData dataEnd blocks).2 = none ↔
    (∀ block ∈ blocks, block.read = none ∧ block.write = none) ∧ dataEnd = none := by
  induction blocks with
  | nil => simp [copyData]
  | cons block rest ih =>
    unfold copyData
    cases read : block.read with
    | some failure => simp [read]
    | none => cases write : block.write <;> simp [read,write,ih]

theorem copyData_written (copied : ∀ block ∈ blocks, block.read = none ∧ block.write = none) :
    (copyData dataEnd blocks).1 = blocks.map Block.data := by
  induction blocks with
  | nil => rfl
  | cons block rest ih =>
    obtain ⟨first,others⟩ := forall_mem_cons.mp copied
    simp [copyData,first.1,first.2,ih others]

theorem extractMembers_ok : extractMembers last disk members = .ok written ↔ (∀ member ∈ members, member.Accepted) ∧ last = none ∧
      written = disk ++ members.map fun member => (member.pathname,(copyData member.dataEnd member.blocks).1) := by
  induction members generalizing disk with
  | nil => cases last <;> simp [extractMembers,eq_comm]
  | cons member rest ih =>
    have accepted : member.Accepted ↔ member.readHeader = none ∧ member.writeHeader = none ∧ member.finishEntry = none :=
      ⟨fun all => ⟨all.readHeader,all.writeHeader,all.finishEntry⟩,fun all => ⟨all.1,all.2.1,all.2.2⟩⟩
    rw [extractMembers,forall_mem_cons,accepted]
    cases readHeader : member.readHeader with
    | some failure => simp
    | none =>
      cases writeHeader : member.writeHeader with
      | some failure => simp
      | none => cases finishEntry : member.finishEntry <;> simp [ih]

theorem extract_ok {tarball : Tarball} : tarball.extract = .ok written ↔ tarball.Accepted ∧
    written = tarball.members.map fun member => (member.pathname,(copyData member.dataEnd member.blocks).1) := by
  have accepted : tarball.Accepted ↔ tarball.opened = none ∧ (∀ member ∈ tarball.members, member.Accepted) ∧ tarball.last = none :=
    ⟨fun all => ⟨all.opened,all.members,all.last⟩,fun all => ⟨all.1,all.2.1,all.2.2⟩⟩
  rw [accepted,Tarball.extract]
  cases opened : tarball.opened with
  | some failure => simp
  | none => simp [extractMembers_ok,and_assoc]

theorem extract_status {tarball : Tarball} (failed : tarball.extract = .error status) : status ≠ 0 := by
  have loop : ∀ members disk, extractMembers tarball.last disk members = .error status → status = 1 := by
    intro members
    induction members with
    | nil => cases last : tarball.last <;> simp [extractMembers,eq_comm]
    | cons member rest ih =>
      intro disk stopped
      unfold extractMembers at stopped
      split at stopped
      · exact (Except.error.inj stopped).symm
      · split at stopped
        · exact (Except.error.inj stopped).symm
        · split at stopped
          · exact (Except.error.inj stopped).symm
          · exact ih _ stopped
  unfold Tarball.extract at failed
  cases opened : tarball.opened with
  | some failure =>
    rw [opened] at failed
    cases failed
    cases failure <;> decide
  | none =>
    rw [opened] at failed
    rw [loop _ _ failed]
    decide

theorem contents_extracted {tarball : Tarball} (copied : ∀ member ∈ tarball.members, member.Copied) (accepted : tarball.Accepted) :
    tarball.extract = .ok tarball.contents := by
  refine extract_ok.mpr ⟨accepted,map_congr_left fun member inside => ?_⟩
  rw [Member.content,copyData_written (copied member inside).blocks]

structure Unpacking where
  pid : Nat
  opts : Options
  archive : String
  files : Files
  given : opts.manifest = some archive
  complete : opts.complete = true
  present : archive ∈ files.tarballs

-- The stage directory comes with the first entry that is written.
def Unpacking.unpack (u : Unpacking) (tarball : Tarball) : Files × Daemon :=
  match tarball.extract with
  | .error _ => (u.files,(launched u.opts).exit)
  | .ok disk =>
    if disk.isEmpty && u.files.stage.isNone then
      ({u.files with tarballs := u.files.tarballs.erase u.archive},(launched u.opts).exit)
    else (launched u.opts).advance u.pid u.files

def Unpacking.goOn (u : Unpacking) (tarball : Tarball) : Files × Daemon :=
  let (files,daemon) := u.unpack tarball
  let (files,daemon) := daemon.advance u.pid files
  daemon.advance u.pid files

theorem advance_unpacking {u : Unpacking} : (Daemon.launched u.opts).advance u.pid u.files =
    ({u.files with stage := some (u.files.stage.getD ⟨none⟩),tarballs := u.files.tarballs.erase u.archive},
      {launched u.opts with phase := .recording,extracted := true}) := by
  simp [advance,launched,u.complete,unpack,u.given,u.present]

theorem goOn_locked {u : Unpacking} {tarball : Tarball} : (u.goOn tarball).2.locked = true ↔
    ∃ disk, tarball.extract = .ok disk ∧ (disk = [] → u.files.stage.isSome = true) := by
  unfold Unpacking.goOn Unpacking.unpack
  cases extracted : tarball.extract with
  | error status => simp [advance,exit,launched]
  | ok disk =>
    by_cases empty : (disk.isEmpty && u.files.stage.isNone) = true
    · simp only [Bool.and_eq_true,List.isEmpty_iff,Option.isNone_iff_eq_none] at empty
      simp [advance,exit,launched,empty.1,empty.2]
    · simp only [empty,Except.ok.injEq,exists_eq_left']
      rw [if_neg (by decide),advance_unpacking]
      simp only [Bool.and_eq_true,List.isEmpty_iff,Option.isNone_iff_eq_none,not_and] at empty
      simp only [Daemon.advance,Daemon.record,Daemon.to,Daemon.lock,true_iff]
      exact fun nothing => Option.isSome_iff_ne_none.mpr (empty nothing)

structure Unhidden (u : Unpacking) (tarball : Tarball) : Prop where
  whole : (u.goOn tarball).2.locked = true → tarball.extract = .ok tarball.contents
  exits : (∃ member ∈ tarball.members, (copyData member.dataEnd member.blocks).2 ≠ none) →
    ∃ status, tarball.extract = .error status ∧ status ≠ 0 ∧ (u.unpack tarball).2.phase = .exited

-- A block that is not copied is hidden unless another call fails.
theorem extraction_failures_exact (u : Unpacking) (tarball : Tarball) : Unhidden u tarball ↔
    (∀ member ∈ tarball.members, member.Copied) ∨ ¬ tarball.Accepted := by
  have copied : ∀ member : Member, (copyData member.dataEnd member.blocks).2 = none ↔ member.Copied := fun member =>
    copyData_answer.trans ⟨fun all => ⟨all.1,all.2⟩,fun all => ⟨all.blocks,all.dataEnd⟩⟩
  constructor
  · intro unhidden
    by_contra neither
    simp only [not_or,not_forall,not_not] at neither
    obtain ⟨⟨member,inside,partly⟩,accepted⟩ := neither
    obtain ⟨status,failed,_⟩ := unhidden.exits ⟨member,inside,fun done => partly ((copied member).mp done)⟩
    rw [extract_ok.mpr ⟨accepted,rfl⟩] at failed
    cases failed
  · intro either
    cases extracted : tarball.extract with
    | error status =>
      refine ⟨fun locked => ?_,fun _ => ⟨status,extracted,extract_status extracted,?_⟩⟩
      · obtain ⟨disk,done,_⟩ := goOn_locked.mp locked
        rw [extracted] at done
        cases done
      · rw [Unpacking.unpack,extracted]
        rfl
    | ok disk =>
      have accepted := (extract_ok.mp extracted).1
      have all := either.resolve_right (not_not.mpr accepted)
      refine ⟨fun _ => contents_extracted all accepted,fun failing => ?_⟩
      obtain ⟨member,inside,failed⟩ := failing
      exact absurd ((copied member).mpr (all member inside)) failed

def fullDisk : Tarball := ⟨none,[⟨"stage/lib/libx.so",none,none,[⟨[1],none,none⟩,⟨[2],none,some .fatal⟩],none,none⟩],none⟩

def unpacking : Unpacking where
  pid := 0
  opts := ⟨some "1",some "/tmp",some "stage",some "stage0.tar",some "tool",1,false⟩
  archive := "stage0.tar"
  files := ⟨none,["stage0.tar"],[]⟩
  given := rfl
  complete := rfl
  present := mem_cons_self

theorem extraction_failure_hidden : (unpacking.goOn fullDisk).2.locked = true ∧
    fullDisk.extract = .ok [("stage/lib/libx.so",[[1]])] ∧ ¬ Unhidden unpacking fullDisk := by
  refine ⟨by decide,by decide,fun unhidden => ?_⟩
  exact absurd (unhidden.whole (by decide)) (by decide)

end CommonTools.Backend
