import CommonTools.Backend.Destroy

namespace CommonTools.Backend
open Transfer OrderedMaps Texts List OrderedMap

def stageDirPrefix : String := "cti_daemon"

def pidFile : String := ".cti_pids"

-- What a directory holds. Of a regular file only the pids it reads as matter.
inductive Contents where
  | nil
  | file (name : String) (pids : List Nat) (rest : Contents)
  | dir (name : String) (readable writable : Bool) (inside rest : Contents)
  deriving DecidableEq

def Contents.isNil : Contents → Bool
  | .nil => true
  | _ => false

def Contents.file? (name : String) : Contents → Option (List Nat)
  | .nil => none
  | .file other pids rest => if other = name then some pids else rest.file? name
  | .dir _ _ _ _ rest => rest.file? name

-- The loop of remove_dir. A file goes if the directory it is in may be written;
-- so does a directory that the recursion has emptied. One that can not be
-- opened is left as it is.
def Contents.purge (writable : Bool) : Contents → Contents
  | .nil => .nil
  | .file name pids rest => if writable then rest.purge writable else .file name pids (rest.purge writable)
  | .dir name readable inner inside rest =>
    let left := if readable then inside.purge inner else inside
    if writable && left.isNil then rest.purge writable else .dir name readable inner left (rest.purge writable)

inductive Item where
  | file (pids : List Nat)
  | dir (readable writable : Bool) (inside : Contents)
  deriving DecidableEq

abbrev ToolDir := OrderedMap String Item

def removeDir (t : ToolDir) (name : String) : ToolDir :=
  match t.find name with
  | some (.dir true writable inside) =>
    let left := inside.purge writable
    if left.isNil then t.erase name else t.insert name (.dir true writable left)
  | _ => t

def unlink (t : ToolDir) (name : String) : ToolDir :=
  match t.find name with
  | some (.file _) => t.erase name
  | _ => t

def accessWrite (t : ToolDir) (name : String) : Bool :=
  match t.find name with
  | some (.dir _ writable _) => writable
  | some (.file _) => true
  | none => false

structure Process where
  pid : Nat
  cwd : String
  opened : List String
  deriving DecidableEq

def Process.uses (p : Process) (directory : String) : Bool := decide (p.cwd = directory ∨ directory ∈ p.opened)

-- lsof -t on a directory answers 1 when no process has it open or works in it.
def lsofExit (procs : List Process) (directory : String) : Nat := if procs.any (·.uses directory) then 0 else 1

def sessionFilesInUse (procs : List Process) (directory : String) : Bool := decide (lsofExit procs directory ≠ 1)

structure Machine where
  toolDir : ToolDir
  procs : List Process

def lockName (directory : String) (inst : Nat) : String := ".lock_" ++ directory ++ "_" ++ toString inst

def Options.earlierLockNames (o : Options) : List String := (countdown (o.inst - 1)).map (lockName o.directoryName)

def sweepOne (toolPath : String) (procs : List Process) (t : ToolDir) (name : String) : ToolDir :=
  if stageDirPrefix.toList.isPrefixOf name.toList && accessWrite t name &&
      !sessionFilesInUse procs (toolPath ++ "/" ++ name) then removeDir t name else t

def sweep (toolPath : String) (procs : List Process) (t : ToolDir) : ToolDir :=
  (t.entries.map Prod.fst).foldl (sweepOne toolPath procs) t

-- The pid file of the session that is cleaned up, if main gets as far as to open it.
def Machine.ownPids (m : Machine) (o : Options) : Option (List Nat) :=
  match m.toolDir.find o.directoryName with
  | some (.dir _ _ inside) => inside.file? pidFile
  | _ => none

def killed (procs : List Process) (pids : List Nat) : List Process :=
  procs.filter fun p => decide (p.pid ∉ (readPids pids).targets)

def cleanup (o : Options) (m : Machine) : Machine :=
  match m.ownPids o with
  | none => m
  | some pids =>
    let procs := killed m.procs pids
    let unlocked := o.earlierLockNames.foldl unlink (removeDir m.toolDir o.directoryName)
    ⟨sweep (o.toolPath.getD "") procs unlocked,procs⟩

section Removing
variable {t : ToolDir} {name x : String}

theorem removeDir_other (other : x ≠ name) : (removeDir t name).find x = t.find x := by
  unfold removeDir
  split
  · dsimp only
    split
    · rw [find_erase,if_neg other]
    · rw [find_insert,if_neg other]
  · rfl

def NoDir (t : ToolDir) (name : String) : Prop := ∀ readable writable inside, t.find name ≠ some (.dir readable writable inside)

theorem removeDir_file (name : String) (plain : NoDir t x) : (removeDir t name).find x = t.find x := by
  by_cases same : x = name
  · subst same
    unfold removeDir
    split
    · exact absurd ‹_› (plain _ _ _)
    · rfl
  · exact removeDir_other same

theorem unlink_other (other : x ≠ name) : (unlink t name).find x = t.find x := by
  unfold unlink
  split
  · rw [find_erase,if_neg other]
  · rfl

theorem unlink_dir (name : String) (found : t.find x = some (.dir readable writable inside)) : (unlink t name).find x = t.find x := by
  by_cases same : x = name
  · subst same
    unfold unlink
    rw [found]
    exact found
  · exact unlink_other same

theorem unlinks_other {names : List String} (other : ∀ name ∈ names, x ≠ name) : (names.foldl unlink t).find x = t.find x := by
  induction names generalizing t with
  | nil => rfl
  | cons name rest ih =>
    have later := ih (t := unlink t name) fun other' inside => other other' (mem_cons_of_mem _ inside)
    exact later.trans (unlink_other (other name mem_cons_self))

theorem unlinks_dir {names : List String} (found : t.find x = some (.dir readable writable inside)) :
    (names.foldl unlink t).find x = t.find x := by
  induction names generalizing t with
  | nil => rfl
  | cons name rest ih =>
    have same := unlink_dir name found
    exact (ih (same.trans found)).trans same

theorem purge_dir {inner : Bool} : (Contents.purge writable (.dir other readable inner inside rest)).file? name =
    (rest.purge writable).file? name := by
  rw [Contents.purge]
  generalize (if readable then inside.purge inner else inside) = left
  split <;> rfl

theorem purge_files {c : Contents} : (c.purge true).file? name = none := by
  induction c with
  | nil => rfl
  | file other pids rest ih => exact ih
  | dir other readable inner inside rest _ ih => rw [purge_dir]; exact ih

theorem purge_fewer {c : Contents} (gone : c.file? name = none) : (c.purge writable).file? name = none := by
  induction c with
  | nil => rfl
  | file other pids rest ih =>
    rw [Contents.file?] at gone
    split at gone
    · cases gone
    · rename_i different
      rw [Contents.purge]
      split
      · exact ih gone
      · rw [Contents.file?,if_neg different]; exact ih gone
  | dir other readable inner inside rest _ ih => rw [purge_dir]; exact ih gone

def Gone (t : ToolDir) (stage : String) : Prop :=
  ∀ readable writable inside, t.find stage = some (.dir readable writable inside) → inside.file? pidFile = none

theorem removeDir_left : (∀ readable writable inside, (removeDir t stage).find stage = some (.dir readable writable inside) →
      (∃ before, t.find stage = some (.dir true writable before) ∧ inside = before.purge writable) ∨
      t.find stage = some (.dir readable writable inside) ∧ readable = false) := by
  intro readable writable inside found
  cases before : t.find stage with
  | none =>
    rw [removeDir,before] at found
    exact absurd (before.symm.trans found) (by simp)
  | some item =>
    cases item with
    | file pids =>
      rw [removeDir,before] at found
      exact absurd (before.symm.trans found) (by simp)
    | dir readable' writable' inside' =>
      cases readable' with
      | false =>
        rw [removeDir,before] at found
        cases before.symm.trans found
        exact .inr ⟨rfl,rfl⟩
      | true =>
        rw [removeDir,before] at found
        dsimp only at found
        split at found
        · rw [find_erase,if_pos rfl] at found; cases found
        · rw [find_insert,if_pos rfl] at found
          cases found
          exact .inl ⟨_,rfl,rfl⟩

theorem removeDir_gone (gone : Gone t stage) : Gone (removeDir t name) stage := by
  intro readable writable inside found
  by_cases same : stage = name
  · subst same
    rcases removeDir_left readable writable inside found with ⟨before,old,rfl⟩ | ⟨old,_⟩
    · exact purge_fewer (gone _ _ _ old)
    · exact gone _ _ _ old
  · rw [removeDir_other same] at found
    exact gone _ _ _ found

end Removing

section Sweeping
variable {t : ToolDir} {toolPath : String} {procs : List Process}

theorem inUse_exact : sessionFilesInUse procs directory = true ↔ ∃ p ∈ procs, p.uses directory = true := by
  unfold sessionFilesInUse lsofExit
  cases used : procs.any (·.uses directory) with
  | true | false => simpa using used

theorem sweepOne_other (other : x ≠ name) : (sweepOne toolPath procs t name).find x = t.find x := by
  unfold sweepOne
  split
  · exact removeDir_other other
  · rfl

-- A directory the user may not write to, may not read, or that is in use stays.
theorem sweepOne_spared (found : t.find stage = some (.dir readable writable inside))
    (spared : readable = false ∨ writable = false ∨ sessionFilesInUse procs (toolPath ++ "/" ++ stage) = true)
    (name : String) : (sweepOne toolPath procs t name).find stage = t.find stage := by
  by_cases same : stage = name
  · subst same
    unfold sweepOne
    split
    · rename_i removed
      simp only [Bool.and_eq_true,accessWrite,found] at removed
      have unreadable : readable = false := by
        rcases spared with unreadable | unwritable | used
        · exact unreadable
        · rw [removed.1.2] at unwritable; cases unwritable
        · rw [used] at removed; cases removed.2
      subst unreadable
      rw [removeDir,found]
      exact found
    · rfl
  · exact sweepOne_other same

theorem sweepOne_gone (gone : Gone t stage) : Gone (sweepOne toolPath procs t name) stage := by
  unfold sweepOne
  split
  · exact removeDir_gone gone
  · exact gone

theorem sweepOne_removes (named : stageDirPrefix.toList.isPrefixOf stage.toList = true)
    (found : t.find stage = some (.dir true true inside)) (unused : sessionFilesInUse procs (toolPath ++ "/" ++ stage) = false) :
    Gone (sweepOne toolPath procs t stage) stage := by
  unfold sweepOne
  rw [if_pos (by simp [named,accessWrite,found,unused])]
  intro readable writable left there
  rcases removeDir_left readable writable left there with ⟨before,old,rfl⟩ | ⟨old,unreadable⟩
  · cases found.symm.trans old
    exact purge_files
  · cases found.symm.trans old
    cases unreadable

theorem sweeps_spared {names : List String} (found : t.find stage = some (.dir readable writable inside))
    (spared : readable = false ∨ writable = false ∨ sessionFilesInUse procs (toolPath ++ "/" ++ stage) = true) :
    (names.foldl (sweepOne toolPath procs) t).find stage = t.find stage := by
  induction names generalizing t with
  | nil => rfl
  | cons name rest ih =>
    have same := sweepOne_spared found spared name
    exact (ih (same.trans found)).trans same

theorem sweeps_file {names : List String} (plain : NoDir t x) : (names.foldl (sweepOne toolPath procs) t).find x = t.find x := by
  induction names generalizing t with
  | nil => rfl
  | cons name rest ih =>
    have same : (sweepOne toolPath procs t name).find x = t.find x := by
      unfold sweepOne
      split
      · exact removeDir_file name plain
      · rfl
    have later := ih (t := sweepOne toolPath procs t name) fun readable writable inside found =>
      plain readable writable inside (same ▸ found)
    exact later.trans same

theorem sweeps_gone (names : List String) (gone : Gone t stage) : Gone (names.foldl (sweepOne toolPath procs) t) stage := by
  induction names generalizing t with
  | nil => exact gone
  | cons name rest ih => exact ih (sweepOne_gone gone)

theorem sweeps_removes {names : List String} (listed : stage ∈ names)
    (named : stageDirPrefix.toList.isPrefixOf stage.toList = true) (found : t.find stage = some (.dir true true inside))
    (unused : sessionFilesInUse procs (toolPath ++ "/" ++ stage) = false) : Gone (names.foldl (sweepOne toolPath procs) t) stage := by
  induction names generalizing t with
  | nil => cases listed
  | cons name rest ih =>
    by_cases same : stage = name
    · subst same
      exact sweeps_gone rest (sweepOne_removes named found unused)
    · exact ih ((mem_cons.mp listed).resolve_left same) ((sweepOne_other same).trans found)

end Sweeping

def OwnFile (stage name : String) : Prop := (∃ i, name = archiveFile stage i) ∨ ∃ i, name = lockName stage i

-- A session of which something was shipped to this node: a daemon has left its pid.
structure Staged (t : ToolDir) (stage : String) : Prop where
  named : stageDirPrefix.toList.isPrefixOf stage.toList = true
  directory : ∃ readable writable inside, t.find stage = some (.dir readable writable inside) ∧
    (inside.file? pidFile).isSome = true
  files : ∀ name, OwnFile stage name → NoDir t name

def Kept (before after : ToolDir) (stage : String) : Prop :=
  ∀ name, name = stage ∨ OwnFile stage name → after.find name = before.find name

def Spared (m : Machine) (toolPath : String) (pids : List Nat) (stage : String) : Prop :=
  ∀ readable writable inside, m.toolDir.find stage = some (.dir readable writable inside) →
    readable = false ∨ writable = false ∨
      ∃ p ∈ m.procs, p.uses (toolPath ++ "/" ++ stage) = true ∧ p.pid ∉ pids.take 1

section Isolation
variable {m : Machine} {o : Options} {t : ToolDir} {stage : String}

theorem lockName_inj (same : lockName one i = lockName two j) : one = two := by
  have path : lockPath "" one i = lockPath "" two j := by
    rw [← String.toList_inj]
    have lists := congrArg String.toList same
    simpa [lockPath,lockName] using lists
  cases lockPath_number path
  have lists := congrArg String.toList same
  simp only [lockName,String.toList_append,append_assoc] at lists
  exact String.toList_inj.mp (append_cancel_right (append_cancel_left lists))

theorem ownFile_unlocked (named : stageDirPrefix.toList.isPrefixOf stage.toList = true) (own : OwnFile stage name)
    (other : stage ≠ o.directoryName) : ∀ lock ∈ o.earlierLockNames, name ≠ lock := by
  rintro lock inside rfl
  obtain ⟨j,_,rfl⟩ := mem_map.mp inside
  rcases own with ⟨i,archive⟩ | ⟨i,lock⟩
  · obtain ⟨rest,whole⟩ := List.isPrefixOf_iff_prefix.mp named
    have lists := congrArg String.toList archive
    rw [archiveFile,String.toList_append,String.toList_append,← whole,lockName] at lists
    simp [stageDirPrefix] at lists
  · exact other (lockName_inj lock).symm

theorem killed_uses : sessionFilesInUse (killed m.procs pids) directory = true ↔
      ∃ p ∈ m.procs, p.uses directory = true ∧ p.pid ∉ pids.take 1 := by
  rw [inUse_exact]
  unfold killed
  rw [targets_readPids]
  constructor
  · rintro ⟨p,inside,used⟩
    obtain ⟨listed,alive⟩ := mem_filter.mp inside
    exact ⟨p,listed,used,of_decide_eq_true alive⟩
  · rintro ⟨p,listed,used,alive⟩
    exact ⟨p,mem_filter.mpr ⟨listed,decide_eq_true alive⟩,used⟩

theorem cleanup_files (staged : Staged m.toolDir stage) (other : stage ≠ o.directoryName) (own : OwnFile stage name) :
    (cleanup o m).toolDir.find name = m.toolDir.find name := by
  unfold cleanup
  split
  · rfl
  · have removed := removeDir_file o.directoryName (staged.files name own)
    have unlinked : (o.earlierLockNames.foldl unlink (removeDir m.toolDir o.directoryName)).find name =
        m.toolDir.find name := (unlinks_other (ownFile_unlocked staged.named own other)).trans removed
    have plain : NoDir (o.earlierLockNames.foldl unlink (removeDir m.toolDir o.directoryName)) name := by
      intro readable writable inside found
      rw [unlinked] at found
      exact staged.files name own readable writable inside found
    exact (sweeps_file plain).trans unlinked

theorem unlocked_stage (other : stage ≠ o.directoryName) (found : m.toolDir.find stage = some (.dir readable writable inside)) :
    (o.earlierLockNames.foldl unlink (removeDir m.toolDir o.directoryName)).find stage = some (.dir readable writable inside) := by
  have removed := (removeDir_other other).trans found
  exact (unlinks_dir removed).trans removed

theorem cleanup_spares (staged : Staged m.toolDir stage) (other : stage ≠ o.directoryName)
    (recorded : m.ownPids o = some pids) (spared : Spared m (o.toolPath.getD "") pids stage) :
    (cleanup o m).toolDir.find stage = m.toolDir.find stage := by
  obtain ⟨readable,writable,inside,found,_⟩ := staged.directory
  have unlocked := unlocked_stage other found
  unfold cleanup
  rw [recorded,found,← unlocked]
  refine sweeps_spared unlocked ?_
  rcases spared readable writable inside found with unreadable | unwritable | used
  · exact .inl unreadable
  · exact .inr (.inl unwritable)
  · exact .inr (.inr (killed_uses.mpr used))

theorem cleanup_removes (staged : Staged m.toolDir stage) (other : stage ≠ o.directoryName)
    (recorded : m.ownPids o = some pids) (unspared : ¬ Spared m (o.toolPath.getD "") pids stage) :
    (cleanup o m).toolDir.find stage ≠ m.toolDir.find stage := by
  obtain ⟨readable,writable,inside,found,pidded⟩ := staged.directory
  have unlocked := unlocked_stage other found
  have loose : readable = true ∧ writable = true ∧
      sessionFilesInUse (killed m.procs pids) (o.toolPath.getD "" ++ "/" ++ stage) = false := by
    refine ⟨?_,?_,?_⟩
    all_goals
      by_contra held
      refine unspared fun readable' writable' inside' found' => ?_
      cases found.symm.trans found'
    · exact .inl (by simpa using held)
    · exact .inr (.inl (by simpa using held))
    · exact .inr (.inr (killed_uses.mp (by simpa using held)))
  obtain ⟨rfl,rfl,unused⟩ := loose
  intro same
  have listed : stage ∈ (o.earlierLockNames.foldl unlink (removeDir m.toolDir o.directoryName)).entries.map Prod.fst :=
    mem_map.mpr ⟨(stage,.dir true true inside),(find_mem (stage,_) _).mp unlocked,rfl⟩
  have gone : Gone (cleanup o m).toolDir stage := by
    unfold cleanup
    rw [recorded]
    exact sweeps_removes listed staged.named unlocked unused
  rw [gone true true inside (same.trans found)] at pidded
  cases pidded

end Isolation

-- A clean-up leaves the other sessions their files exactly when it finds nothing
-- of its own, or every other stage directory is out of the user's reach or has
-- a process in it.
theorem cleanup_isolates (o : Options) (m : Machine) (others : List String)
    (staged : ∀ stage ∈ others, stage ≠ o.directoryName ∧ Staged m.toolDir stage) :
    (∀ stage ∈ others, Kept m.toolDir (cleanup o m).toolDir stage) ↔
      ∀ pids, m.ownPids o = some pids → ∀ stage ∈ others, Spared m (o.toolPath.getD "") pids stage := by
  constructor
  · intro kept pids recorded stage inside
    obtain ⟨other,there⟩ := staged stage inside
    by_contra unspared
    exact cleanup_removes there other recorded unspared (kept stage inside stage (.inl rfl))
  · rintro spared stage inside name (rfl | own)
    · obtain ⟨other,there⟩ := staged name inside
      cases recorded : m.ownPids o with
      | none => rw [cleanup,recorded]
      | some pids => exact cleanup_spares there other recorded (spared pids recorded name inside)
    · obtain ⟨other,there⟩ := staged stage inside
      exact cleanup_files there other own

def ownOptions : Options := ⟨some "job",some "/tool",some "cti_daemonA",none,none,1,true⟩

-- The other session has sent its files and is waiting for its first tool.
def twoSessions (procs : List Process) : Machine :=
  ⟨((.empty : ToolDir).insert "cti_daemonA" (.dir true true (.file pidFile [7] .nil))).insert "cti_daemonB"
    (.dir true true (.dir "bin" true true (.file "tool" [] .nil) (.file pidFile [8] .nil))),procs⟩

theorem twoSessions_staged : Staged (twoSessions procs).toolDir "cti_daemonB" := by
  refine ⟨by decide,⟨_,_,_,rfl,rfl⟩,?_⟩
  intro name own readable writable inside found
  have key : name = "cti_daemonA" ∨ name = "cti_daemonB" := by
    by_contra neither
    obtain ⟨first,second⟩ := not_or.mp neither
    rw [twoSessions,find_insert,if_neg second,find_insert,if_neg first] at found
    cases found
  -- An archive ends in "r", a lock file starts with a dot.
  rcases own with ⟨i,rfl⟩ | ⟨i,rfl⟩
  · have last := key.imp (congrArg fun text => text.toList.reverse.head?) (congrArg fun text => text.toList.reverse.head?)
    simp [archiveFile] at last
  · have head := key.imp (congrArg fun text => text.toList.head?) (congrArg fun text => text.toList.head?)
    simp [lockName] at head

theorem cleanup_isolates_busy : Kept (twoSessions [⟨9,"/tool/cti_daemonB",[]⟩]).toolDir
      (cleanup ownOptions (twoSessions [⟨9,"/tool/cti_daemonB",[]⟩])).toolDir "cti_daemonB" := by
  refine (cleanup_isolates ownOptions (twoSessions [⟨9,"/tool/cti_daemonB",[]⟩]) ["cti_daemonB"] ?_).mpr ?_ _ mem_cons_self
  · intro stage inside
    cases mem_singleton.mp inside
    exact ⟨by decide,twoSessions_staged⟩
  · intro pids recorded stage inside
    cases mem_singleton.mp inside
    cases recorded
    exact fun _ _ _ _ => .inr (.inr ⟨_,mem_cons_self,by decide,by decide⟩)

theorem idle_session_swept : (twoSessions []).toolDir.find "cti_daemonB" ≠ none ∧
    (cleanup ownOptions (twoSessions [])).toolDir.find "cti_daemonB" = none := by
  decide

end CommonTools.Backend
