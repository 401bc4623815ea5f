import CommonTools.FeDaemon.Wire
import CommonTools.Library.Scanning

namespace CommonTools.Applications.Aprun
open Numerals Scanning FeDaemon List

def oldLocation : Bytes := ascii "/usr/bin/aprun"

-- CTI_APRUN_PATH and whether it can be stat'ed, where realpath leads from the new
-- location, and whether there is something at the old one.
structure Site where
  user : Option Bytes
  userStat : Bool
  obs : Option Bytes
  old : Bool

-- Whether the path is taken for a wrapper. strncmp looks at no more than the known location.
def checkPathForWrappedAprun (site : Site) (aprunPath : Bytes) : Except Bytes Bool :=
  match site.user with
  | some user =>
    if site.userStat then .ok (!user.isPrefixOf aprunPath)
    else .error (ascii "CTI_APRUN_PATH is set but cannot stat its value.")
  | none =>
    if oldLocation.isPrefixOf aprunPath then .ok false
    else match site.obs with
      | none => .ok site.old
      | some obs => .ok (!obs.isPrefixOf aprunPath)

def Site.Real (site : Site) (exe : Bytes) : Prop :=
  match site.user with
  | some user => exe = user
  | none => exe = oldLocation ∨ site.obs = some exe

structure Process where
  pid : Nat
  comm : Bytes
  state : UInt8
  parent : Nat
  exe : Bytes
  openable : Bool
deriving DecidableEq

def Process.stat (p : Process) : Bytes :=
  decimal p.pid ++ ascii " (" ++ p.comm ++ ascii ") " ++ p.state :: 32 :: (decimal p.parent ++ [32])

-- fscanf with %*d %*s %*c %d; a name with a blank in it shifts what is read.
def scanParent (stat : Bytes) : Option Int := do
  let (_,rest) ← scanLong stat
  let (_,rest) ← scanWord rest.length rest
  let (ppid,_) ← scanLong (rest.dropWhile isSpace).tail
  return (BitVec.ofInt 32 ppid).toInt

def procPath (pid : Nat) (file : Bytes) : Bytes := ascii "/proc/" ++ decimal pid ++ 47 :: file

-- What readdir gives: . and .. and names that std::stoi refuses are passed over.
def potentialPid (name : Bytes) : Option Int :=
  if name = ascii "." ∨ name = ascii ".." then none
  else match stoi name with
    | .error _ => none
    | .ok (pid,_) => some pid

structure ProcEntry where
  name : Bytes
  process : Option Process
  numbered : potentialPid name = process.map fun p => (p.pid : Int)

-- What is checked of a child is the name of its link, which no wrapper or aprun lies at.
def searchProc (site : Site) (launchedPid : Nat) : List ProcEntry → Except Bytes Nat
  | [] => .error (ascii "Could not find child aprun process of wrapped aprun command.")
  | entry :: rest =>
    match entry.process with
    | none => searchProc site launchedPid rest
    | some p =>
      if !p.openable then .error (ascii "failed to open path " ++ procPath p.pid (ascii "stat"))
      else if scanParent p.stat = some (launchedPid : Int) then
        match checkPathForWrappedAprun site (procPath p.pid (ascii "exe")) with
        | .error message => .error message
        | .ok true => .ok p.pid
        | .ok false => searchProc site launchedPid rest
      else searchProc site launchedPid rest

def basename (path : Bytes) : Bytes := (path.reverse.takeWhile (· ≠ 47)).reverse

-- The link is read again as long as the launcher has not been exec'ed, five times at most.
def rereadExe (launcherName : Bytes) : (left : Nat) → (reads : Nat → Bytes) → Bytes → Bytes
  | 0,_,realExePath => realExePath
  | left + 1,reads,_ =>
    let realExePath := reads 0
    if basename realExePath = launcherName then realExePath else rereadExe launcherName left (fun k => reads (k + 1)) realExePath

def findRealAprunPid (site : Site) (launcherName : Bytes) (reads : Nat → Bytes) (proc : Option (List ProcEntry)) (launchedPid : Nat) :
    Except Bytes Nat :=
  let realExePath := rereadExe launcherName 5 (fun k => reads (k + 1)) (reads 0)
  match checkPathForWrappedAprun site realExePath with
  | .error message => .error message
  | .ok false => .ok launchedPid
  | .ok true =>
    match proc with
    | none => .error (ascii "Could not enumerate /proc for real aprun process.")
    | some entries => searchProc site launchedPid entries

structure Table where
  entries : List ProcEntry
  launched : Process
  listed : launched ∈ entries.filterMap ProcEntry.process
  distinct : ((entries.filterMap ProcEntry.process).map Process.pid).Nodup

def Table.processes (table : Table) : List Process := table.entries.filterMap ProcEntry.process

def Table.found (table : Table) (site : Site) (launcherName : Bytes) : Except Bytes Nat :=
  findRealAprunPid site launcherName (fun _ => table.launched.exe) (some table.entries) table.launched.pid

def Table.RealChild (table : Table) (site : Site) (child : Process) : Prop :=
  child ∈ table.processes ∧ child.parent = table.launched.pid ∧ site.Real child.exe

structure Table.Resolves (table : Table) (site : Site) (launcherName : Bytes) : Prop where
  complete : ¬ site.Real table.launched.exe → (∃ child, table.RealChild site child) →
    ∃ child, table.RealChild site child ∧ table.found site launcherName = .ok child.pid
  sound : ∀ pid, table.found site launcherName = .ok pid → ∃ p ∈ table.processes, p.pid = pid ∧ site.Real p.exe

-- Where the search ends: a process that is gone, or one that is read as a child and whose
-- link is not taken for the binary.
def Table.ends (table : Table) (site : Site) (p : Process) : Bool :=
  !p.openable || (decide (scanParent p.stat = some (table.launched.pid : Int)) &&
    (checkPathForWrappedAprun site (procPath p.pid (ascii "exe"))).toOption.getD false)

def endSearch : Option Process → Except Bytes Nat
  | none => .error (ascii "Could not find child aprun process of wrapped aprun command.")
  | some p => if p.openable then .ok p.pid else .error (ascii "failed to open path " ++ procPath p.pid (ascii "stat"))

section Outcome
variable {site : Site} {table : Table} {launcherName : Bytes}

theorem reread_same (left : Nat) (exe : Bytes) : rereadExe launcherName left (fun _ => exe) exe = exe := by
  induction left with
  | zero => rfl
  | succ left ih =>
    rw [rereadExe]
    split
    · rfl
    · exact ih

theorem wrapped_unreal (wrapped : checkPathForWrappedAprun site exe = .ok true) : ¬ site.Real exe := by
  have whole : ∀ text : Bytes, text.isPrefixOf text = true := fun text => List.isPrefixOf_iff_prefix.mpr prefix_rfl
  intro real
  unfold checkPathForWrappedAprun at wrapped
  unfold Site.Real at real
  cases known : site.user with
  | some user =>
    simp only [known] at wrapped real
    subst real
    split at wrapped
    · simp [whole] at wrapped
    · cases wrapped
  | none =>
    simp only [known] at wrapped real
    rcases real with rfl | same
    · simp [whole] at wrapped
    · simp only [same,whole] at wrapped
      split at wrapped <;> simp at wrapped

theorem search_find (entries : List ProcEntry) (checks : ∀ path, ∃ wrapped, checkPathForWrappedAprun site path = .ok wrapped) :
    searchProc site table.launched.pid entries = endSearch ((entries.filterMap ProcEntry.process).find? (table.ends site)) := by
  induction entries with
  | nil => rfl
  | cons entry rest ih =>
    cases process : entry.process with
    | none =>
      rw [filterMap_cons_none process,searchProc,process]
      exact ih
    | some p =>
      obtain ⟨wrapped,checked⟩ := checks (procPath p.pid (ascii "exe"))
      simp only [filterMap_cons_some process,List.find?_cons,searchProc,process,Table.ends,checked]
      cases opened : p.openable with
      | false => simp [endSearch,opened]
      | true =>
        by_cases child : scanParent p.stat = some (table.launched.pid : Int)
        · cases wrapped with
          | false =>
            simp only [child,decide_true]
            exact ih
          | true => simp [child,endSearch,opened,Except.toOption]
        · simp only [child,decide_false]
          exact ih

-- Either every path is checked or, with a location of the user's that is not there, none is.
theorem checks_all (checked : checkPathForWrappedAprun site exe = .ok wrapped) (path : Bytes) :
    ∃ wrapped, checkPathForWrappedAprun site path = .ok wrapped := by
  unfold checkPathForWrappedAprun at checked ⊢
  cases known : site.user with
  | some user =>
    simp only [known] at checked ⊢
    split at checked
    · rename_i there
      exact ⟨_,if_pos there⟩
    · cases checked
  | none =>
    dsimp only
    split
    · exact ⟨_,rfl⟩
    · split <;> exact ⟨_,rfl⟩

theorem found_checked : table.found site launcherName =
    match checkPathForWrappedAprun site table.launched.exe with
    | .error message => .error message
    | .ok false => .ok table.launched.pid
    | .ok true => searchProc site table.launched.pid table.entries := by
  unfold Table.found findRealAprunPid
  rw [reread_same]

theorem same_process (ours : p ∈ table.processes) (theirs : q ∈ table.processes) (pid : p.pid = q.pid) : p = q :=
  inj_on_of_nodup_map table.distinct ours theirs pid

theorem resolves_error (failed : table.found site launcherName = .error message) :
    table.Resolves site launcherName ↔ site.Real table.launched.exe ∨ ¬ ∃ child, table.RealChild site child := by
  constructor
  · intro resolves
    by_contra neither
    obtain ⟨unreal,children⟩ := not_or.mp neither
    obtain ⟨child,_,found⟩ := resolves.complete unreal (not_not.mp children)
    cases failed.symm.trans found
  · intro either
    refine ⟨fun unreal children => (either.resolve_left unreal children).elim,?_⟩
    intro pid found
    cases failed.symm.trans found

theorem resolves_ok (found : table.found site launcherName = .ok p.pid) (listed : p ∈ table.processes) :
    table.Resolves site launcherName ↔ site.Real p.exe ∧
      (¬ site.Real table.launched.exe → (∃ child, table.RealChild site child) → p.parent = table.launched.pid) := by
  constructor
  · intro resolves
    obtain ⟨q,theirs,pid,real⟩ := resolves.sound p.pid found
    cases same_process theirs listed pid
    refine ⟨real,fun unreal children => ?_⟩
    obtain ⟨child,ours,again⟩ := resolves.complete unreal children
    cases same_process listed ours.1 (Except.ok.inj (found.symm.trans again))
    exact ours.2.1
  · rintro ⟨real,parent⟩
    constructor
    · intro unreal children
      exact ⟨p,⟨listed,parent unreal children,real⟩,found⟩
    · intro pid again
      exact ⟨p,listed,Except.ok.inj (found.symm.trans again),real⟩

theorem aprun_exact : table.Resolves site launcherName ↔
    match checkPathForWrappedAprun site table.launched.exe with
    | .error _ => site.Real table.launched.exe ∨ ¬ ∃ child, table.RealChild site child
    | .ok false => site.Real table.launched.exe
    | .ok true =>
      match table.processes.find? (table.ends site) with
      | none => ¬ ∃ child, table.RealChild site child
      | some p => (p.openable → site.Real p.exe) ∧
        ((∃ child, table.RealChild site child) → p.openable ∧ p.parent = table.launched.pid) := by
  have found : table.found site launcherName = _ := found_checked
  cases checked : checkPathForWrappedAprun site table.launched.exe with
  | error message =>
    rw [checked] at found
    exact resolves_error found
  | ok wrapped =>
    rw [checked] at found
    cases wrapped with
    | false =>
      rw [resolves_ok found table.listed]
      exact ⟨fun both => both.1,fun real => ⟨real,fun unreal => absurd real unreal⟩⟩
    | true =>
      have unreal := wrapped_unreal checked
      have ended := found.trans (search_find table.entries (checks_all checked))
      cases first : table.processes.find? (table.ends site) with
      | none =>
        rw [Table.processes] at first
        rw [first] at ended
        rw [resolves_error ended]
        exact or_iff_right unreal
      | some p =>
        have listed := mem_of_find?_eq_some first
        rw [Table.processes] at first
        rw [first,endSearch] at ended
        cases opened : p.openable with
        | false =>
          rw [opened] at ended
          rw [resolves_error ended,or_iff_right unreal]
          simp [opened]
        | true =>
          rw [opened] at ended
          rw [resolves_ok ended listed]
          simp [unreal,opened]

-- The wrapper's shell comes before its aprun in /proc.
def wrapper : Process := ⟨10,ascii "aprun",83,1,ascii "/opt/site/aprun",true⟩
def shell : Process := ⟨11,ascii "sh",83,10,ascii "/bin/sh",true⟩
def aprun : Process := ⟨12,ascii "aprun",83,10,oldLocation,true⟩

def shellFirst : Table :=
  ⟨[⟨ascii "10",some wrapper,by decide⟩,⟨ascii "11",some shell,by decide⟩,⟨ascii "12",some aprun,by decide⟩],
    wrapper,by decide,by decide⟩

theorem shell_found : shellFirst.found ⟨none,true,none,true⟩ (ascii "aprun") = .ok 11 ∧
    shellFirst.RealChild ⟨none,true,none,true⟩ aprun ∧ ¬ shellFirst.Resolves ⟨none,true,none,true⟩ (ascii "aprun") := by
  have found : shellFirst.found ⟨none,true,none,true⟩ (ascii "aprun") = .ok shell.pid := by decide
  refine ⟨found,⟨by decide,by decide,.inl rfl⟩,fun resolves => ?_⟩
  have real := ((resolves_ok found (by decide)).mp resolves).1
  exact absurd real (by simp [Site.Real,shell]; decide)

end Outcome

end CommonTools.Applications.Aprun
