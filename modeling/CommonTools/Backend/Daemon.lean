import CommonTools.Library.Programs
import CommonTools.Transfer.Session

namespace CommonTools.Backend
open Transfer

def stripSpaces (text : String) : String := String.ofList (text.toList.dropWhile (· = ' '))

-- What the argument loop of main leaves behind, as far as later steps read it.
structure Options where
  apid : Option String
  toolPath : Option String
  directory : Option String
  manifest : Option String
  binary : Option String
  inst : Nat
  cleanup : Bool
  deriving DecidableEq

def Options.default : Options := ⟨none,none,none,none,none,1,false⟩

def Options.take (o : Options) : DaemonArg → Options
  | .apID value => {o with apid := some (stripSpaces value)}
  | .toolPath value => {o with toolPath := some (stripSpaces value)}
  | .manifestName value => {o with manifest := some (stripSpaces value)}
  | .binary value => {o with binary := some (stripSpaces value)}
  | .directory value => {o with directory := some (stripSpaces value)}
  | .instSeqNum value => {o with inst := value}
  | .clean => {o with cleanup := true}
  | _ => o

-- Options end at the "--"; what follows belongs to the tool daemon.
def Options.read : Options → List DaemonArg → Options
  | o,[] => o
  | o,.plain _ :: _ => o
  | o,arg :: rest => (o.take arg).read rest

def Options.complete (o : Options) : Bool :=
  o.apid.isSome && (o.directory.isSome || o.manifest.isSome) && o.toolPath.isSome

-- strstr on ".tar": everything from its first occurrence on is cut off.
def untarred : List Char → List Char
  | [] => []
  | c :: rest => if ".tar".toList.isPrefixOf (c :: rest) then [] else c :: untarred rest

def Options.directoryName (o : Options) : String :=
  o.directory.getD (String.ofList (untarred (o.manifest.getD "").toList))

def lockPath (toolPath directory : String) (inst : Nat) : String :=
  toolPath ++ "/.lock_" ++ directory ++ "_" ++ toString inst

def Options.lock (o : Options) (inst : Nat) : String := lockPath (o.toolPath.getD "") o.directoryName inst

-- for (i = inst-1; i > 0; --i), the loop that waits for the earlier daemons and
-- the one that removes their lock files.
def countdown : Nat → List Nat
  | 0 => []
  | i + 1 => (i + 1) :: countdown i

def Options.earlierLocks (o : Options) : List String := (countdown (o.inst - 1)).map o.lock

-- The stage directory on a node. A daemon stands for its pid: it is named by its
-- place in the order of launching.
structure Stage where
  pids : Option (List Nat)
  deriving DecidableEq

structure Files where
  stage : Option Stage
  tarballs : List String
  locks : List String
  deriving DecidableEq

def Files.append (files : Files) (stage : Stage) (pid : Nat) : Files :=
  {files with stage := some ⟨some (stage.pids.getD [] ++ [pid])⟩}

inductive Phase where
  | unpacking
  | recording
  | locking
  | adjusting
  | waiting (locks : List String)
  | ready
  | tool
  | exited
  deriving DecidableEq

-- The two flags are history: nothing the daemon does depends on them.
structure Daemon where
  opts : Options
  phase : Phase
  extracted : Bool
  locked : Bool
  deriving DecidableEq

def Daemon.launched (opts : Options) : Daemon := ⟨opts,.unpacking,false,false⟩

def Daemon.exit (d : Daemon) : Daemon := {d with phase := .exited}

def Daemon.to (d : Daemon) (phase : Phase) : Daemon := {d with phase := phase}

section Stepping
variable (pid : Nat) (files : Files) (d : Daemon)

-- Up to the check that the stage directory is there. The archive is unpacked in
-- the tool directory, so unpacking makes the stage directory.
def Daemon.unpack : Files × Daemon :=
  match d.opts.manifest with
  | some archive =>
    if archive ∈ files.tarballs then
      ({files with stage := some (files.stage.getD ⟨none⟩),tarballs := files.tarballs.erase archive},
        {d with phase := .recording,extracted := true})
    else (files,d.exit)
  | none => if files.stage.isSome then (files,{d with phase := .recording,extracted := true}) else (files,d.exit)

def Daemon.record : Files × Daemon :=
  match files.stage with
  | some stage => (files.append stage pid,d.to .locking)
  | none => (files,d.exit)

def Daemon.lock : Files × Daemon :=
  ({files with locks := d.opts.lock d.opts.inst :: files.locks},{d with phase := .adjusting,locked := true})

def Daemon.adjust : Daemon :=
  if files.stage.isSome && d.opts.binary.isSome then d.to (.waiting d.opts.earlierLocks) else d.exit

def Daemon.await : List String → Daemon
  | [] => d.to .ready
  | path :: rest => if path ∈ files.locks then d.to (.waiting rest) else d

def Daemon.advance : Files × Daemon :=
  match d.phase with
  | .unpacking => if d.opts.complete then d.unpack files else (files,d.exit)
  | .recording => d.record pid files
  | .locking => d.lock files
  | .adjusting => (files,d.adjust files)
  | .waiting paths => (files,d.await files paths)
  | .ready => (files,if files.stage.isSome then d.to .tool else d.exit)
  | .tool => (files,d.exit)
  | .exited => (files,d)

-- A call that fails ends the process, except that a lock file which can not be
-- made is only reported.
def Daemon.fail : Daemon :=
  match d.phase with
  | .locking => d.to .adjusting
  | _ => d.exit

end Stepping

-- struct cti_pids: 32 slots and a fill count, linked to the next one.
structure PidBlock where
  pids : List Nat
  idx : Nat
  deriving DecidableEq

def PidBlock.fresh : PidBlock := ⟨List.replicate 32 0,0⟩

structure PidChain where
  full : List PidBlock
  last : PidBlock
  deriving DecidableEq

def PidChain.fresh : PidChain := ⟨[],.fresh⟩

def pidSize : Nat := 4

-- The count is set from the bytes of this one read; it does not add up.
def PidChain.store (chain : PidChain) (pid : Nat) : PidChain :=
  let stored : PidBlock := ⟨chain.last.pids.set chain.last.idx pid,pidSize / pidSize⟩
  if stored.idx ≥ 32 then ⟨chain.full ++ [stored],.fresh⟩ else ⟨chain.full,stored⟩

def PidChain.targets (chain : PidChain) : List Nat :=
  (chain.full ++ [chain.last]).flatMap fun block => block.pids.take block.idx

def readPids (pids : List Nat) : PidChain := pids.foldl PidChain.store .fresh

inductive CleanPhase where
  | opening
  | reading (offset : Nat) (chain : PidChain)
  | killing (pids : List Nat)
  | removing
  | unlinking (paths : List String)
  | sweeping
  | finished
  deriving DecidableEq

structure Cleaner where
  opts : Options
  phase : CleanPhase
  deriving DecidableEq

structure Node where
  files : Files
  daemons : List Daemon
  cleaner : Option Cleaner
  deriving DecidableEq

def Node.start : Node := ⟨⟨none,[],[]⟩,[],none⟩

def Daemon.inStage (d : Daemon) : Bool :=
  match d.phase with
  | .waiting _ => true
  | .ready => true
  | .tool => true
  | _ => false

def Node.put (n : Node) (pid : Nat) (moved : Files × Daemon) : Node :=
  {n with files := moved.1,daemons := n.daemons.set pid moved.2}

-- A pid that is not running any more is passed over.
def Node.kill (n : Node) (pid : Nat) : Node :=
  match n.daemons[pid]? with
  | some d => n.put pid (n.files,d.exit)
  | none => n

def Node.cleanerTo (n : Node) (c : Cleaner) (phase : CleanPhase) : Node := {n with cleaner := some {c with phase := phase}}

def Node.launched (n : Node) (opts : Options) : Node :=
  {n with files := {n.files with tarballs := n.files.tarballs ++ opts.manifest.toList},
          daemons := n.daemons ++ [Daemon.launched opts]}

def Node.unstaged (n : Node) : Node := {n with files := {n.files with stage := none}}

def Node.unlocked (n : Node) (path : String) : Node :=
  {n with files := {n.files with locks := n.files.locks.filter (· ≠ path)}}

-- The pid file is read one pid at a time, while daemons may still write to it.
def Cleaner.advance (c : Cleaner) (n : Node) : Node :=
  match c.phase with
  | .opening =>
    match n.files.stage with
    | some ⟨some _⟩ => n.cleanerTo c (.reading 0 .fresh)
    | _ => n.cleanerTo c .finished
  | .reading offset chain =>
    match (n.files.stage.bind Stage.pids).bind (·[offset]?) with
    | some pid => n.cleanerTo c (.reading (offset + 1) (chain.store pid))
    | none => n.cleanerTo c (.killing chain.targets)
  | .killing [] => n.cleanerTo c .removing
  | .killing (pid :: rest) => (n.kill pid).cleanerTo c (.killing rest)
  | .removing => n.unstaged.cleanerTo c (.unlinking c.opts.earlierLocks)
  | .unlinking [] => n.cleanerTo c .sweeping
  | .unlinking (path :: rest) => (n.unlocked path).cleanerTo c (.unlinking rest)
  | .sweeping => (if n.daemons.any Daemon.inStage then n else n.unstaged).cleanerTo c .finished
  | .finished => n

inductive Event where
  | launch
  | advance (pid : Nat)
  | fail (pid : Nat)
  | clean
  | tidy
  deriving DecidableEq

section Running
variable (starts : List Options) (clean : Option Options)

-- finalize is called once, after the last daemon of the session was started.
def Node.Cleanable (n : Node) : Prop := n.cleaner = none ∧ starts.length ≤ n.daemons.length

instance (n : Node) : Decidable (n.Cleanable starts) := inferInstanceAs (Decidable (_ ∧ _))

-- A node with the daemons of one session. Each is launched in its turn, when
-- its archive has been shipped; from then on the order of the steps is free.
def Node.next (n : Node) : Event → Node
  | .launch =>
    match n.cleaner,starts[n.daemons.length]? with
    | none,some opts => n.launched opts
    | _,_ => n
  | .advance pid =>
    match n.daemons[pid]? with
    | some d => n.put pid (d.advance pid n.files)
    | none => n
  | .fail pid =>
    match n.daemons[pid]? with
    | some d => n.put pid (n.files,d.fail)
    | none => n
  | .clean =>
    match clean with
    | some opts => if n.Cleanable starts then {n with cleaner := some ⟨opts,.opening⟩} else n
    | none => n
  | .tidy =>
    match n.cleaner with
    | some c => c.advance n
    | none => n

inductive Moves (n : Node) : Event → Node → Prop where
  | still : Moves n event n
  | launched (idle : n.cleaner = none) (turn : starts[n.daemons.length]? = some opts) : Moves n .launch (n.launched opts)
  | worked (found : n.daemons[pid]? = some d) : Moves n (.advance pid) (n.put pid (d.advance pid n.files))
  | failed (found : n.daemons[pid]? = some d) : Moves n (.fail pid) (n.put pid (n.files,d.fail))
  | called (asked : clean = some opts) (cleanable : n.Cleanable starts) :
      Moves n .clean {n with cleaner := some ⟨opts,.opening⟩}
  | tidied (active : n.cleaner = some c) : Moves n .tidy (c.advance n)

theorem next_moves (n : Node) (event : Event) : Moves starts clean n event (n.next starts clean event) := by
  cases event with
  | launch =>
    simp only [Node.next]
    split
    · exact .launched ‹_› ‹_›
    · exact .still
  | advance pid =>
    simp only [Node.next]
    split
    · exact .worked ‹_›
    · exact .still
  | fail pid =>
    simp only [Node.next]
    split
    · exact .failed ‹_›
    · exact .still
  | clean =>
    simp only [Node.next]
    split
    · split
      · exact .called rfl ‹_›
      · exact .still
    · exact .still
  | tidy =>
    simp only [Node.next]
    split
    · exact .tidied ‹_›
    · exact .still

end Running

end CommonTools.Backend
