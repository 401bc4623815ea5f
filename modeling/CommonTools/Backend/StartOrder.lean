import CommonTools.Backend.Daemon
import CommonTools.Transfer.Records

namespace CommonTools.Backend
open Transfer Programs Texts List
open Options hiding directory inst toolPath
open Daemon hiding opts phase

theorem mem_countdown : i ∈ countdown m ↔ 0 < i ∧ i ≤ m := by
  induction m with
  | zero => simp only [countdown,not_mem_nil,false_iff]; omega
  | succ m ih =>
    simp only [countdown,mem_cons,ih]
    omega

theorem mem_earlierLocks {o : Options} : path ∈ o.earlierLocks ↔ ∃ i, 0 < i ∧ i < o.inst ∧ o.lock i = path := by
  unfold earlierLocks
  rw [mem_map]
  constructor
  · rintro ⟨i,inside,rfl⟩
    have bounds := mem_countdown.mp inside
    exact ⟨i,bounds.1,by omega,rfl⟩
  · rintro ⟨i,positive,below,rfl⟩
    exact ⟨i,mem_countdown.mpr ⟨positive,by omega⟩,rfl⟩

theorem lockPath_number (same : lockPath toolPath directory i = lockPath toolPath' directory' j) : i = j := by
  -- The number is what follows the last underscore.
  have lists := congrArg (fun text => text.toList.reverse) same
  simp only [lockPath,String.toList_append,reverse_append] at lists
  have free (n : Nat) : '_' ∉ (toString n).toList.reverse := by
    have number : Without '_' (toString n) := without_number rfl
    exact fun inside => number (mem_reverse.mp inside)
  obtain ⟨same,_⟩ := append_sep_inj (free i) (free j) lists
  exact number_inj (String.toList_inj.mp (reverse_inj.mp same))

def Prepared (daemons : List Daemon) (i : Nat) : Prop :=
  ∃ e, daemons[i]? = some e ∧ e.extracted = true ∧ e.locked = true

def Daemon.Passed (d : Daemon) (path : String) : Prop :=
  match d.phase with
  | .waiting paths => path ∉ paths
  | .ready => True
  | .tool => True
  | _ => False

def Daemon.staged (d : Daemon) : Bool :=
  match d.phase with
  | .unpacking => false
  | .exited => false
  | _ => true

structure Daemon.Sound (d : Daemon) : Prop where
  unpacked : d.staged = true → d.extracted = true
  locked : d.locked = true → d.extracted = true
  binary : d.inStage = true → d.opts.binary.isSome = true

-- What one step of a daemon, or the end of it, can do to the others.
structure Daemon.Moved (files : Files) (d : Daemon) (files' : Files) (d' : Daemon) : Prop where
  opts : d'.opts = d.opts
  extracted : d.extracted = true → d'.extracted = true
  locked : d.locked = true → d'.locked = true
  sound : d.Sound → d'.Sound
  locks : files'.locks = files.locks ∨
    (files'.locks = d.opts.lock d.opts.inst :: files.locks ∧ d'.locked = true)
  passed : ∀ path ∈ d.opts.earlierLocks, d'.Passed path → d.Passed path ∨ path ∈ files.locks

section Stepping
variable {files : Files} {d : Daemon}

theorem exit_moved : d.Moved files files d.exit :=
  ⟨rfl,id,id,fun sound => ⟨nofun,sound.locked,nofun⟩,.inl rfl,
    nofun⟩

theorem stay_moved : d.Moved files files d := ⟨rfl,id,id,id,.inl rfl,fun _ _ passed => .inl passed⟩

theorem unpack_moved : d.Moved files (d.unpack files).1 (d.unpack files).2 := by
  have done : ∀ files', files'.locks = files.locks →
      d.Moved files files' {d with phase := .recording,extracted := true} := fun files' same =>
    ⟨rfl,fun _ => rfl,id,fun _ => ⟨fun _ => rfl,fun _ => rfl,nofun⟩,.inl same,
      nofun⟩
  unfold unpack
  split
  · split
    · exact done _ rfl
    · exact exit_moved
  · split
    · exact done _ rfl
    · exact exit_moved

theorem to_moved (same : files'.locks = files.locks) (staged : d.staged = true)
    (binary : (d.to phase).inStage = true → d.inStage = true ∨ d.opts.binary.isSome = true)
    (before : ∀ path ∈ d.opts.earlierLocks, (d.to phase).Passed path → d.Passed path ∨ path ∈ files.locks) :
    d.Moved files files' (d.to phase) :=
  ⟨rfl,id,id,fun sound => ⟨fun _ => sound.unpacked staged,sound.locked,
    fun inside => (binary inside).elim sound.binary id⟩,.inl same,before⟩

theorem record_moved (here : d.phase = .recording) : d.Moved files (d.record pid files).1 (d.record pid files).2 := by
  unfold record
  split
  · exact to_moved rfl (by simp [staged,here]) nofun
      nofun
  · exact exit_moved

theorem lock_moved (here : d.phase = .locking) : d.Moved files (d.lock files).1 (d.lock files).2 := by
  have staged : d.staged = true := by simp [staged,here]
  refine ⟨rfl,id,fun _ => rfl,fun sound => ⟨fun _ => sound.unpacked staged,fun _ => sound.unpacked staged,?_⟩,
    .inr ⟨rfl,rfl⟩,?_⟩
  · intro inside; cases inside
  · intro path _ passed; cases passed

theorem adjust_moved (here : d.phase = .adjusting) : d.Moved files files (d.adjust files) := by
  unfold adjust
  split
  · rename_i both
    exact to_moved rfl (by simp [staged,here])
      (fun _ => .inr (Bool.and_eq_true_iff.mp both).2) fun path earlier passed => absurd earlier passed
  · exact exit_moved

theorem await_moved (here : d.phase = .waiting paths) : d.Moved files files (d.await files paths) := by
  have staged : d.staged = true := by simp [staged,here]
  have inside : d.inStage = true := by simp [inStage,here]
  have left : ∀ path, d.Passed path ↔ path ∉ paths := fun path => by simp [Daemon.Passed,here]
  cases paths with
  | nil => exact to_moved rfl staged (fun _ => .inl inside) fun path _ _ => .inl ((left path).mpr not_mem_nil)
  | cons first rest =>
    by_cases present : first ∈ files.locks
    · rw [await,if_pos present]
      refine to_moved rfl staged (fun _ => .inl inside) fun path _ passed => ?_
      by_cases same : path = first
      · exact .inr (same ▸ present)
      · exact .inl ((left path).mpr fun among => passed ((mem_cons.mp among).resolve_left same))
    · rw [await,if_neg present]
      exact stay_moved

theorem advance_moved (pid : Nat) (files : Files) (d : Daemon) : d.Moved files (d.advance pid files).1 (d.advance pid files).2 := by
  unfold advance
  split
  · split
    · exact unpack_moved
    · exact exit_moved
  · exact record_moved ‹_›
  · exact lock_moved ‹_›
  · exact adjust_moved ‹_›
  · exact await_moved ‹_›
  · rename_i here
    split
    · exact to_moved rfl (by simp [staged,here]) (fun _ => .inl (by simp [inStage,here]))
        fun _ _ _ => .inl (by simp [Daemon.Passed,here])
    · exact exit_moved
  · exact exit_moved
  · exact stay_moved

theorem fail_moved : d.Moved files files d.fail := by
  unfold fail
  split
  · rename_i here
    exact to_moved rfl (by simp [staged,here]) nofun
      nofun
  · exact exit_moved

end Stepping

structure Numbered (starts : List Options) (path : Nat → String) : Prop where
  inst : ∀ (k : Nat) (o : Options), starts[k]? = some o → o.inst = k
  lock : ∀ (k : Nat) (o : Options), starts[k]? = some o → ∀ i, o.lock i = path i

structure Waits (starts : List Options) (path : Nat → String) (n : Node) : Prop where
  opts : ∀ (k : Nat) (d : Daemon), n.daemons[k]? = some d → starts[k]? = some d.opts
  sound : ∀ d ∈ n.daemons, d.Sound
  locks : ∀ text ∈ n.files.locks, ∃ i, text = path i ∧ Prepared n.daemons i
  waits : ∀ (k : Nat) (d : Daemon), n.daemons[k]? = some d → ∀ i, 0 < i → i < k → d.Passed (path i) → Prepared n.daemons i

section Waiting
variable {starts : List Options} {path : Nat → String} {n : Node} {d d' : Daemon} {pid : Nat}

theorem prepared_append (prepared : Prepared daemons i) : Prepared (daemons ++ more) i := by
  obtain ⟨e,found,rest⟩ := prepared
  have bound := (List.getElem?_eq_some_iff.mp found).1
  exact ⟨e,by rw [List.getElem?_append_left bound]; exact found,rest⟩

theorem prepared_set (found : daemons[pid]? = some d) (extracted : d.extracted = true → d'.extracted = true)
    (locked : d.locked = true → d'.locked = true) (prepared : Prepared daemons i) : Prepared (daemons.set pid d') i := by
  obtain ⟨e,there,unpacked,made⟩ := prepared
  by_cases same : pid = i
  · subst same
    cases found.symm.trans there
    exact ⟨d',by rw [List.getElem?_set_self (List.getElem?_eq_some_iff.mp found).1],extracted unpacked,locked made⟩
  · exact ⟨e,by rw [List.getElem?_set_ne same]; exact there,unpacked,made⟩

theorem put_waits (injective : Function.Injective path) (numbered : Numbered starts path) (waits : Waits starts path n)
    (found : n.daemons[pid]? = some d) (moved : d.Moved n.files files' d') : Waits starts path (n.put pid (files',d')) := by
  have own := waits.opts pid d found
  have keep : ∀ i, Prepared n.daemons i → Prepared (n.daemons.set pid d') i := fun i => prepared_set found moved.extracted moved.locked
  have now : (n.daemons.set pid d')[pid]? = some d' := List.getElem?_set_self (List.getElem?_eq_some_iff.mp found).1
  have sound : d'.Sound := moved.sound (waits.sound d (List.mem_of_getElem? found))
  -- Every other daemon is where it was.
  have others : ∀ (k : Nat) e, (n.daemons.set pid d')[k]? = some e → k = pid ∧ e = d' ∨ k ≠ pid ∧ n.daemons[k]? = some e := by
    intro k e there
    by_cases same : k = pid
    · subst same; exact .inl ⟨rfl,Option.some.inj (there.symm.trans now)⟩
    · rw [getElem?_set_ne (Ne.symm same)] at there; exact .inr ⟨same,there⟩
  refine ⟨?_,?_,?_,?_⟩
  · intro k e there
    rcases others k e there with ⟨rfl,rfl⟩ | ⟨_,old⟩
    · rw [moved.opts]; exact own
    · exact waits.opts k e old
  · intro e inside
    rcases mem_or_eq_of_mem_set inside with old | rfl
    · exact waits.sound e old
    · exact sound
  · intro text inside
    rcases moved.locks with same | ⟨more,made⟩
    · obtain ⟨i,named,prepared⟩ := waits.locks text (same ▸ inside)
      exact ⟨i,named,keep i prepared⟩
    · rcases mem_cons.mp (more ▸ inside) with rfl | old
      · refine ⟨pid,?_,d',now,sound.locked made,made⟩
        rw [numbered.inst pid _ own,numbered.lock pid _ own]
      · obtain ⟨i,named,prepared⟩ := waits.locks text old
        exact ⟨i,named,keep i prepared⟩
  · intro k e there i positive below passed
    rcases others k e there with ⟨rfl,rfl⟩ | ⟨_,old⟩
    · have earlier := mem_earlierLocks.mpr ⟨i,positive,by rw [numbered.inst k _ own]; exact below,numbered.lock k _ own i⟩
      rcases moved.passed _ earlier passed with before | present
      · exact keep i (waits.waits k d found i positive below before)
      · obtain ⟨j,named,prepared⟩ := waits.locks _ present
        rw [injective named]
        exact keep j prepared
    · exact keep i (waits.waits k e old i positive below passed)

theorem waits_fewer (waits : Waits starts path n) (same : n'.daemons = n.daemons)
    (fewer : n'.files.locks ⊆ n.files.locks) : Waits starts path n' := by
  refine ⟨same ▸ waits.opts,same ▸ waits.sound,?_,same ▸ waits.waits⟩
  intro text inside
  rw [same]
  exact waits.locks text (fewer inside)

theorem launched_waits (waits : Waits starts path n) (turn : starts[n.daemons.length]? = some opts) :
    Waits starts path (n.launched opts) := by
  have split : ∀ (k : Nat) e, (n.daemons ++ [launched opts])[k]? = some e →
      k = n.daemons.length ∧ e = launched opts ∨ n.daemons[k]? = some e := by
    intro k e there
    rw [getElem?_append] at there
    split at there
    · exact .inr there
    · rw [getElem?_singleton] at there
      split at there
      · exact .inl ⟨by omega,(Option.some.inj there).symm⟩
      · cases there
  refine ⟨?_,?_,?_,?_⟩
  · intro k e there
    rcases split k e there with ⟨rfl,rfl⟩ | old
    · exact turn
    · exact waits.opts k e old
  · intro e inside
    rcases mem_append.mp inside with old | new
    · exact waits.sound e old
    · rw [mem_singleton.mp new]
      exact ⟨nofun,nofun,nofun⟩
  · intro text inside
    obtain ⟨i,named,prepared⟩ := waits.locks text inside
    exact ⟨i,named,prepared_append prepared⟩
  · intro k e there i positive below passed
    rcases split k e there with ⟨rfl,rfl⟩ | old
    · cases passed
    · exact prepared_append (waits.waits k e old i positive below passed)

section
variable (injective : Function.Injective path) (numbered : Numbered starts path) (waits : Waits starts path n)
include injective numbered waits

theorem kill_waits : Waits starts path (n.kill pid) := by
  unfold Node.kill
  split
  · exact put_waits injective numbered waits ‹_› exit_moved
  · exact waits

theorem cleaner_waits {c : Cleaner} : Waits starts path (c.advance n) := by
  have turned : ∀ n, Waits starts path n → ∀ phase, Waits starts path (n.cleanerTo c phase) :=
    fun n waits phase => waits_fewer waits rfl fun _ inside => inside
  unfold Cleaner.advance
  split
  · split <;> exact turned _ waits _
  · split <;> exact turned _ waits _
  · exact turned _ waits _
  · exact turned _ (kill_waits injective numbered waits) _
  · exact waits_fewer waits rfl fun _ inside => inside
  · exact turned _ waits _
  · exact waits_fewer waits rfl fun _ inside => mem_of_mem_filter inside
  · refine turned _ ?_ _
    split
    · exact waits
    · exact waits_fewer waits rfl fun _ inside => inside
  · exact waits

theorem next_waits : Waits starts path (n.next starts clean event) := by
  have moved := next_moves starts clean n event
  generalize n.next starts clean event = n' at moved
  cases moved with
  | still => exact waits
  | launched idle turn => exact launched_waits waits turn
  | worked found => exact put_waits injective numbered waits found (advance_moved _ _ _)
  | failed found => exact put_waits injective numbered waits found fail_moved
  | called asked cleanable => exact waits_fewer waits rfl fun _ inside => inside
  | tidied active => exact cleaner_waits injective numbered waits

end

end Waiting

def startOptions (w : World) : List Options := w.starts.map fun start => Options.default.read start.args

def cleanOptions (app : App) (w : World) : Option Options := (finalizeArgs app w.session).map Options.default.read

structure Told (app : App) (stageName : String) (k : Nat) (o : Options) : Prop where
  inst : o.inst = k
  toolPath : o.toolPath = some (stripSpaces app.toolPath)
  directory : o.directory = some (stripSpaces stageName)
  apid : o.apid.isSome = true
  archive : o.manifest.isSome = true

section Reading
variable {app : App} {s : Session}

theorem read_env {o : Options} {vars : List String} : o.read (vars.map .envVariable ++ rest) = o.read rest := by
  induction vars with
  | nil => rfl
  | cons var vars ih => exact ih

theorem read_debug {o : Options} {debug : Bool} {rest : List DaemonArg} :
    o.read ((if debug then [.debug] else []) ++ rest) = o.read rest := by
  cases debug <;> rfl

theorem read_common (app : App) (s : Session) (o : Options) (rest : List DaemonArg) : o.read (commonArgs app s ++ rest) =
      read {o with directory := some (stripSpaces s.stageName),inst := s.seqNum} rest := by
  simp only [commonArgs,append_assoc]
  exact read_debug.trans read_env

theorem read_finish {o : Options} {daemonArgs : Option (List String)} :
    o.read (match daemonArgs with | none => [] | some args => .plain "--" :: args.map .plain) = o := by
  cases daemonArgs <;> rfl

theorem send_told (told : SendTold app s name args) :
    Told app s.stageName s.seqNum (default.read args) ∧ (default.read args).binary = none := by
  cases told
  have read : default.read (sendArgs app s name) = ⟨some (stripSpaces app.jobId),some (stripSpaces app.toolPath),
      some (stripSpaces s.stageName),some (stripSpaces name),none,s.seqNum,false⟩ := by
    have common := read_common app s ⟨some (stripSpaces app.jobId),some (stripSpaces app.toolPath),none,
      some (stripSpaces name),none,1,false⟩ []
    rwa [append_nil] at common
  rw [read]
  exact ⟨⟨rfl,rfl,rfl,rfl,rfl⟩,rfl⟩

theorem exec_told (told : ExecTold app daemonArgs envVars s name args) (named : name ≠ "") :
    Told app s.stageName s.seqNum (default.read args) ∧ (default.read args).binary.isSome = true := by
  obtain ⟨binaryName,rfl⟩ := told
  have read : default.read (execArgs app s name binaryName daemonArgs envVars) =
      ⟨some (stripSpaces app.jobId),some (stripSpaces app.toolPath),some (stripSpaces s.stageName),
        some (stripSpaces name),some (stripSpaces binaryName),s.seqNum,false⟩ := by
    simp only [execArgs,append_assoc]
    have common := read_common app s ⟨some (stripSpaces app.jobId),some (stripSpaces app.toolPath),none,
      some (stripSpaces name),some (stripSpaces binaryName),1,false⟩ ((envVars.getD []).map .envVariable ++
        (match daemonArgs with | none => [] | some args => .plain "--" :: args.map .plain))
    rw [read_env,read_finish] at common
    split <;> split <;> exact common
  rw [read]
  exact ⟨⟨rfl,rfl,rfl,rfl,rfl⟩,rfl⟩

end Reading

-- The k-th daemon of a session is instance k, and it is told to run a binary
-- unless its start was synchronous.
structure Counted (app : App) (stageName : String) (w : World) : Prop where
  stage : w.session.stageName = stageName
  count : w.session.seqNum = w.starts.length
  told : ∀ (k : Nat) start, w.starts[k]? = some start → Told app stageName k (default.read start.args)
  runs : ∀ start ∈ w.starts, (default.read start.args).binary.isSome = !start.synchronous

section Counting
variable {app : App} {w w' : World}

theorem counted_same (counted : Counted app stageName w) (stage : w'.session.stageName = w.session.stageName)
    (count : w'.session.seqNum = w.session.seqNum) (starts : w'.starts = w.starts) : Counted app stageName w' :=
  ⟨stage.trans counted.stage,by rw [count,starts]; exact counted.count,starts ▸ counted.told,starts ▸ counted.runs⟩

theorem counted_started (counted : Counted app stageName w) (told : Told app stageName w.starts.length (default.read start.args))
    (runs : (default.read start.args).binary.isSome = !start.synchronous) : Counted app stageName (w.started start) := by
  refine ⟨counted.stage,?_,?_,?_⟩
  · change w.session.seqNum + 1 = (w.starts ++ [start]).length
    rw [counted.count,length_append]; rfl
  · intro k other there
    rw [World.started,getElem?_append] at there
    split at there
    · exact counted.told k other there
    · rw [getElem?_singleton] at there
      split at there
      · cases there
        have here : k = w.starts.length := by omega
        exact here ▸ told
      · cases there
  · intro other inside
    rcases mem_append.mp inside with old | new
    · exact counted.runs other old
    · rw [mem_singleton.mp new]; exact runs

theorem extended_counts {s : Session} : (s.extended libPath).stageName = s.stageName ∧ (s.extended libPath).seqNum = s.seqNum := by
  unfold Session.extended; split <;> exact ⟨rfl,rfl⟩

theorem frame_counts (frame : (w.opened mani).SameBut s) : s.stageName = w.session.stageName ∧ s.seqNum = w.session.seqNum := by
  rw [frame]; exact ⟨rfl,rfl⟩

theorem archiveFile_ne : archiveFile stageName inst ≠ "" := by
  intro empty
  have lists := congrArg String.toList empty
  simp [archiveFile] at lists

theorem outcome_counted (counted : Counted app stageName w) (outcome : Outcome host w mani calls delivery Args synchronous returned w')
    (tells : ∀ (s : Session) name args, Args s name args → name ≠ "" → Told app s.stageName s.seqNum (default.read args) ∧
      (default.read args).binary.isSome = !synchronous) : Counted app stageName w' := by
  have extended : ∀ {s : Session} (libPath : String), (w.opened mani).SameBut s →
      (s.extended libPath).stageName = w.session.stageName ∧ (s.extended libPath).seqNum = w.session.seqNum :=
    fun libPath frame => ⟨extended_counts.1.trans (frame_counts frame).1,
      extended_counts.2.trans (frame_counts frame).2⟩
  cases outcome with
  | refused _ => exact counted
  | emptied _ owned present nothing | unadded entered threw => exact counted_same counted rfl rfl rfl
  | unmerged entered added failed =>
    have frame := frame_counts (mergeFails_frame failed)
    exact counted_same counted frame.1 frame.2 rfl
  | undelivered entered added merged | unstarted entered added merged =>
    have frame := fun libPath => extended libPath (merges_frame merged)
    exact counted_same counted (frame _).1 (frame _).2 rfl
  | @started m all removed s' args entered added merged told =>
    have frame := fun libPath => extended libPath (merges_frame merged)
    obtain ⟨told,runs⟩ := tells _ _ _ told archiveFile_ne
    rw [(frame _).1,(frame _).2,counted.stage,counted.count] at told
    have delivered : Counted app stageName (w.delivered mani delivery (filled host w calls m) (gained host w calls m)
      removed s') := counted_same counted (frame _).1 (frame _).2 rfl
    exact counted_started delivered told runs

theorem next_counted {call : Call} (counted : Counted app stageName w) : Counted app stageName (call.next host app w) := by
  have moved := Transfer.next_moves host app w call
  generalize call.next host app w = w' at moved
  cases moved with
  | created => exact counted_same counted rfl rfl rfl
  | absent _ => exact counted
  | added present => exact counted_same counted rfl rfl rfl
  | sent outcome =>
    refine outcome_counted counted outcome fun s name args told _ => ?_
    obtain ⟨told,none⟩ := send_told told
    exact ⟨told,by rw [none]; rfl⟩
  | ran outcome => exact outcome_counted counted outcome fun s name args told named => exec_told told named

theorem start_counted : Counted app stageName (World.start app stageName wlmType) := ⟨rfl,rfl,nofun,nofun⟩

theorem counted_numbered (counted : Counted app stageName w) :
    Numbered (startOptions w) (lockPath (stripSpaces app.toolPath) (stripSpaces stageName)) := by
  have told : ∀ (k : Nat) o, (startOptions w)[k]? = some o → Told app stageName k o := by
    intro k o there
    rw [startOptions,getElem?_map] at there
    obtain ⟨start,found,rfl⟩ := Option.map_eq_some_iff.mp there
    exact counted.told k start found
  refine ⟨fun k o there => (told k o there).inst,fun k o there i => ?_⟩
  rw [Options.lock,Options.directoryName,(told k o there).toolPath,(told k o there).directory]
  rfl

end Counting

def Runs (starts : List Options) (clean : Option Options) (n : Node) : Prop :=
  ∃ events : List Event, n = events.foldl (Node.next starts clean) Node.start

-- The daemons of the session up to the j-th, of which the first has unpacked its
-- archive and the others have made their lock files as well.
structure Halfway (starts : List Options) (clean : Option Options) (path : Nat → String) (j : Nat) (n : Node) : Prop where
  runs : Runs starts clean n
  idle : n.cleaner = none
  length : n.daemons.length = j
  stage : n.files.stage.isSome = true
  locks : ∀ i, 0 < i → i < j → path i ∈ n.files.locks
  first : ∃ d, n.daemons[0]? = some d ∧ d.locked = false

section Overtaking
variable {starts : List Options} {clean : Option Options} {path : Nat → String} {n : Node} {d : Daemon}

theorem runs_next (runs : Runs starts clean n) (event : Event) : Runs starts clean (n.next starts clean event) := by
  obtain ⟨events,rfl⟩ := runs
  exact ⟨events ++ [event],by rw [foldl_append]; rfl⟩

theorem runs_last (runs : Runs starts clean n) (shape : n.daemons = front ++ [d]) :
    ∃ n', Runs starts clean n' ∧ n'.cleaner = n.cleaner ∧ n'.files = (d.advance front.length n.files).1 ∧
      n'.daemons = front ++ [(d.advance front.length n.files).2] := by
  have found : n.daemons[front.length]? = some d := by rw [shape]; exact getElem?_concat_length
  have onward := runs_next runs (.advance front.length)
  rw [Node.next,found] at onward
  refine ⟨_,onward,rfl,rfl,?_⟩
  simp only [Node.put,shape]
  simp

theorem runs_unpack (runs : Runs starts clean n) (idle : n.cleaner = none)
    (turn : starts[n.daemons.length]? = some o) (complete : o.complete = true) (archived : o.manifest = some archive) :
    ∃ n', Runs starts clean n' ∧ n'.cleaner = none ∧ n'.files.stage.isSome = true ∧ n'.files.locks = n.files.locks ∧
      n'.daemons = n.daemons ++ [⟨o,.recording,true,false⟩] := by
  have onward : Runs starts clean (n.launched o) := by
    have launched := runs_next runs .launch
    rwa [Node.next,idle,turn] at launched
  have shape : (n.launched o).daemons = n.daemons ++ [launched o] := rfl
  obtain ⟨n',runs',cleaner,files,daemons⟩ := runs_last onward shape
  have present : archive ∈ (n.launched o).files.tarballs := by simp [Node.launched,archived]
  simp only [advance,launched,complete,unpack,archived,present,if_true] at files daemons
  exact ⟨n',runs',cleaner.trans idle,by rw [files]; rfl,by rw [files]; rfl,daemons⟩

theorem halfway_first (turn : starts[0]? = some o) (complete : o.complete = true) (archived : o.manifest = some archive)
    : ∃ n, Halfway starts clean path 1 n := by
  have begun : Runs starts clean Node.start := ⟨[],rfl⟩
  obtain ⟨n,runs,idle,stage,locks,daemons⟩ := runs_unpack begun rfl turn complete archived
  refine ⟨n,runs,idle,by rw [daemons]; rfl,stage,?_,?_⟩
  · intro i positive below; omega
  · exact ⟨_,by rw [daemons]; rfl,rfl⟩

theorem runs_lock (numbered : Numbered starts path) (half : Halfway starts clean path j n)
    (turn : starts[j]? = some o) (complete : o.complete = true) (archived : o.manifest = some archive) :
    ∃ n', Halfway starts clean path (j + 1) n' ∧ n'.daemons = n.daemons ++ [⟨o,.adjusting,true,true⟩] := by
  obtain ⟨one,runs,idle,stage,locks,daemons⟩ := runs_unpack half.runs half.idle (half.length ▸ turn) complete archived
  obtain ⟨two,runs,idle',files,daemons⟩ := runs_last runs daemons
  obtain ⟨held,present⟩ := Option.isSome_iff_exists.mp stage
  simp only [advance,record,present] at files daemons
  obtain ⟨three,runs,idle'',files',daemons⟩ := runs_last runs daemons
  simp only [Daemon.advance,Daemon.to,Daemon.lock] at files' daemons
  refine ⟨three,⟨runs,idle''.trans (idle'.trans idle),?_,?_,?_,?_⟩,daemons⟩
  · rw [daemons,length_append,half.length]; rfl
  · rw [files',files]; rfl
  · intro i positive below
    rw [files',files]
    by_cases own : i = j
    · rw [own]
      refine mem_cons.mpr (.inl ?_)
      rw [numbered.inst j o turn,numbered.lock j o turn]
    · refine mem_cons_of_mem _ ?_
      change path i ∈ one.files.locks
      rw [locks]
      exact half.locks i positive (by omega)
  · obtain ⟨d,found,unlocked⟩ := half.first
    refine ⟨d,?_,unlocked⟩
    rw [daemons,List.getElem?_append_left (List.getElem?_eq_some_iff.mp found).1]
    exact found

theorem halfway_all (clean : Option Options) (numbered : Numbered starts path)
    (launchable : ∀ o ∈ starts, o.complete = true ∧ o.manifest.isSome = true) (positive : 0 < j) (bound : j ≤ starts.length) :
    ∃ n, Halfway starts clean path j n := by
  have ready : ∀ k < starts.length, ∃ o archive, starts[k]? = some o ∧ o.complete = true ∧ o.manifest = some archive := by
    intro k below
    obtain ⟨complete,archived⟩ := launchable starts[k] (getElem_mem below)
    obtain ⟨archive,named⟩ := Option.isSome_iff_exists.mp archived
    exact ⟨_,archive,getElem?_eq_getElem below,complete,named⟩
  induction j with
  | zero => omega
  | succ j ih =>
    obtain ⟨o,archive,turn,complete,archived⟩ := ready j (by omega)
    cases j with
    | zero => exact halfway_first turn complete archived
    | succ j =>
      obtain ⟨n,half⟩ := ih (by omega) (by omega)
      obtain ⟨n',half',_⟩ := runs_lock numbered half turn complete archived
      exact ⟨n',half'⟩

theorem runs_await (runs : Runs starts clean n) (shape : n.daemons = front ++ [d]) (here : d.phase = .waiting paths)
    (stage : n.files.stage.isSome = true) (present : ∀ text ∈ paths, text ∈ n.files.locks) :
    ∃ n', Runs starts clean n' ∧ n'.daemons = front ++ [d.to .tool] := by
  induction paths generalizing n d with
  | nil =>
    obtain ⟨one,runs,_,files,daemons⟩ := runs_last runs shape
    simp only [advance,here,await] at files daemons
    obtain ⟨two,runs,_,_,daemons⟩ := runs_last runs daemons
    simp only [Daemon.advance,Daemon.to,files,stage,if_true] at daemons
    exact ⟨two,runs,daemons⟩
  | cons text rest ih =>
    obtain ⟨one,runs,_,files,daemons⟩ := runs_last runs shape
    simp only [advance,here,await,present text mem_cons_self,if_true] at files daemons
    have later := ih runs daemons rfl (by rw [files]; exact stage)
      fun other inside => by rw [files]; exact present other (mem_cons_of_mem _ inside)
    exact later

theorem runs_overtake {clean : Option Options} (numbered : Numbered starts path)
    (launchable : ∀ o ∈ starts, o.complete = true ∧ o.manifest.isSome = true) (positive : 0 < k)
    (turn : starts[k]? = some o) (binary : o.binary.isSome = true) :
    ∃ n, Runs starts clean n ∧ (∃ d ∈ n.daemons, d.phase = .tool ∧ d.opts = o) ∧ ∃ d, n.daemons[0]? = some d ∧ d.locked = false := by
  obtain ⟨bound,_⟩ := List.getElem?_eq_some_iff.mp turn
  obtain ⟨complete,archived⟩ := launchable o (List.mem_of_getElem? turn)
  obtain ⟨archive,named⟩ := Option.isSome_iff_exists.mp archived
  obtain ⟨before,half⟩ := halfway_all clean numbered launchable positive (Nat.le_of_lt bound)
  obtain ⟨one,half',daemons⟩ := runs_lock numbered half turn complete named
  obtain ⟨two,runs,_,files,daemons⟩ := runs_last half'.runs daemons
  simp only [advance,adjust,half'.stage,binary,Bool.and_self,if_true] at files daemons
  obtain ⟨three,runs,daemons⟩ := runs_await runs daemons rfl (by rw [files]; exact half'.stage) (by
    intro text inside
    obtain ⟨i,positive,below,rfl⟩ := mem_earlierLocks.mp inside
    rw [files,numbered.lock k o turn]
    rw [numbered.inst k o turn] at below
    exact half'.locks i positive (by omega))
  refine ⟨three,runs,⟨_,by rw [daemons]; exact mem_append_right _ mem_cons_self,rfl,rfl⟩,?_⟩
  obtain ⟨d,found,unlocked⟩ := half.first
  refine ⟨d,?_,unlocked⟩
  rw [daemons,List.getElem?_append_left (List.getElem?_eq_some_iff.mp found).1]
  exact found

end Overtaking

def Node.StartedInOrder (n : Node) : Prop :=
  ∀ d ∈ n.daemons, d.phase = .tool → ∀ i < d.opts.inst,
    ∃ e ∈ n.daemons, e.opts.inst = i ∧ e.extracted = true ∧ e.locked = true

def unlinkedLocks (clean : Option Options) : List String := (clean.map Options.earlierLocks).getD []

def runSession (host : Host) (app : App) (stageName wlmType : String) (calls : List Call) : World :=
  calls.foldl (Call.next host app) (World.start app stageName wlmType)

def runNode (app : App) (w : World) (events : List Event) : Node :=
  events.foldl (Node.next (startOptions w) (cleanOptions app w)) Node.start

section Order
variable {app : App} {w : World}

section
variable (counted : Counted app stageName w)
include counted

theorem counted_launchable : ∀ o ∈ startOptions w, o.complete = true ∧ o.manifest.isSome = true := by
  intro o inside
  obtain ⟨start,listed,rfl⟩ := mem_map.mp inside
  obtain ⟨k,found⟩ := getElem?_of_mem listed
  have told := counted.told k start found
  refine ⟨?_,told.archive⟩
  simp [complete,told.apid,told.toolPath,told.directory]

theorem run_waits (events : List Event) :
    Waits (startOptions w) (lockPath (stripSpaces app.toolPath) (stripSpaces stageName)) (runNode app w events) := by
  have initial : Waits (startOptions w) (lockPath (stripSpaces app.toolPath) (stripSpaces stageName)) Node.start := by
    constructor <;> simp [Node.start]
  exact reached_invariant initial (fun n event waits _ =>
    next_waits (fun _ _ same => lockPath_number same) (counted_numbered counted) waits)
    (reached_free _ _ events)

theorem run_later (events : List Event) : ∀ d ∈ (runNode app w events).daemons, d.phase = .tool → ∀ i, 0 < i → i < d.opts.inst →
      ∃ e ∈ (runNode app w events).daemons, e.opts.inst = i ∧ e.extracted = true ∧ e.locked = true := by
  intro d inside tool i positive below
  have waits := run_waits counted events
  have numbered := counted_numbered counted
  obtain ⟨k,found⟩ := getElem?_of_mem inside
  rw [numbered.inst k _ (waits.opts k d found)] at below
  have passed : d.Passed (lockPath (stripSpaces app.toolPath) (stripSpaces stageName) i) := by simp only [Daemon.Passed,tool]
  obtain ⟨e,there,extracted,locked⟩ := waits.waits k d found i positive below passed
  exact ⟨e,mem_of_getElem? there,numbered.inst i _ (waits.opts i e there),extracted,locked⟩

theorem order_exact : (∀ events, (runNode app w events).StartedInOrder) ↔
      ∀ (k : Nat) start, w.starts[k]? = some start → start.synchronous = false → k = 0 := by
  have numbered := counted_numbered counted
  constructor
  · intro ordered k start found running
    by_contra positive
    have turn : (startOptions w)[k]? = some (default.read start.args) := by rw [startOptions,getElem?_map,found]; rfl
    have binary := counted.runs start (mem_of_getElem? found)
    rw [running] at binary
    obtain ⟨_,⟨events,rfl⟩,⟨d,inside,tool,opts⟩,first,found,unlocked⟩ := runs_overtake numbered
      (counted_launchable counted) (Nat.pos_of_ne_zero positive) turn binary
    have waits := run_waits counted events
    obtain ⟨e,listed,zero,_,locked⟩ := ordered events d inside tool 0
      (by rw [opts,numbered.inst k _ turn]; exact Nat.pos_of_ne_zero positive)
    obtain ⟨j,there⟩ := getElem?_of_mem listed
    have here : j = 0 := (numbered.inst j _ (waits.opts j e there)).symm.trans zero
    subst here
    cases there.symm.trans found
    rw [unlocked] at locked
    cases locked
  · intro alone events d inside tool i below
    have waits := run_waits counted events
    obtain ⟨k,found⟩ := getElem?_of_mem inside
    have opts := waits.opts k d found
    have binary : d.opts.binary.isSome = true := (waits.sound d inside).binary (by simp [inStage,tool])
    rw [startOptions,getElem?_map] at opts
    obtain ⟨start,listed,same⟩ := Option.map_eq_some_iff.mp opts
    have running := counted.runs start (mem_of_getElem? listed)
    rw [same,binary] at running
    have zero := alone k start listed (by simpa using running)
    rw [numbered.inst k _ (waits.opts k d found),zero] at below
    omega

theorem locks_exact : (∀ file, file ∈ unlinkedLocks (cleanOptions app w) ↔ file ∈ getSessionLockFiles app w.session) ↔ w.starts = [] := by
  constructor
  · intro same
    by_contra some
    have positive : 0 < w.session.seqNum := by rw [counted.count]; exact length_pos_iff.mpr some
    -- The lock file of the first daemon is named, but the loop stops before it.
    have first : lockPath app.toolPath w.session.stageName 0 ∈ getSessionLockFiles app w.session :=
      mem_map.mpr ⟨0,mem_range.mpr positive,rfl⟩
    have unlinked := (same _).mpr first
    cases asked : cleanOptions app w with
    | none => rw [asked] at unlinked; cases unlinked
    | some o =>
      rw [asked] at unlinked
      obtain ⟨i,later,_,path⟩ := mem_earlierLocks.mp unlinked
      have zero := lockPath_number path
      omega
  · intro none file
    have zero : w.session.seqNum = 0 := by rw [counted.count,none]; rfl
    have idle : cleanOptions app w = .none := by rw [cleanOptions,finalizeArgs,if_pos zero]; rfl
    rw [idle,getSessionLockFiles,zero]
    exact ⟨nofun,nofun⟩

end

theorem run_counted (host : Host) (app : App) (stageName wlmType : String) (calls : List Call) :
    Counted app stageName (runSession host app stageName wlmType calls) :=
  reached_invariant start_counted (fun w call counted _ => next_counted counted)
    (reached_free _ _ calls)

end Order

-- The daemons of a session start in order exactly when none but the first has a
-- tool to run; its lock files are all removed exactly when it started no daemon.
-- In every case the first daemon is the only one that is not waited for.
theorem start_order_exact (host : Host) (app : App) (stageName wlmType : String) (calls : List Call) :
    ((∀ events, (runNode app (runSession host app stageName wlmType calls) events).StartedInOrder) ↔
      ∀ (k : Nat) start, (runSession host app stageName wlmType calls).starts[k]? = some start → start.synchronous = false → k = 0) ∧
    ((∀ file, file ∈ unlinkedLocks (cleanOptions app (runSession host app stageName wlmType calls)) ↔
        file ∈ getSessionLockFiles app (runSession host app stageName wlmType calls).session) ↔
      (runSession host app stageName wlmType calls).starts = []) ∧
    ∀ events, ∀ d ∈ (runNode app (runSession host app stageName wlmType calls) events).daemons, d.phase = .tool →
      ∀ i, 0 < i → i < d.opts.inst → ∃ e ∈ (runNode app (runSession host app stageName wlmType calls) events).daemons,
          e.opts.inst = i ∧ e.extracted = true ∧ e.locked = true := by
  have counted := run_counted host app stageName wlmType calls
  exact ⟨order_exact counted,locks_exact counted,run_later counted⟩

-- Two tools: the second is launched, unpacked and run while the first has not
-- taken a step.
def twoTools : World :=
  runSession (plainHost fun _ => none) plainApp "stage" "wlm" [.createManifest,.createManifest,
    .execManifest plainDelivery 0 "/t1" none none,.execManifest plainDelivery 1 "/t2" none none]

theorem second_overtakes_first : twoTools.starts.length = 2 ∧
    ¬ (runNode plainApp twoTools ([.launch,.launch] ++ List.replicate 6 (.advance 1))).StartedInOrder ∧
    "/tool/.lock_stage_0" ∈ getSessionLockFiles plainApp twoTools.session ∧
    "/tool/.lock_stage_0" ∉ unlinkedLocks (cleanOptions plainApp twoTools) := by
  refine ⟨by decide,?_,by decide,by decide⟩
  intro ordered
  have tool : (runNode plainApp twoTools ([.launch,.launch] ++ List.replicate 6 (.advance 1))).daemons.any
      (fun d => d.phase = .tool ∧ d.opts.inst = 1) = true := by decide
  obtain ⟨d,inside,running⟩ := any_eq_true.mp tool
  obtain ⟨tool,one⟩ := of_decide_eq_true running
  obtain ⟨e,listed,zero,extracted,_⟩ := ordered d inside tool 0 (by omega)
  have idle : (runNode plainApp twoTools ([.launch,.launch] ++ List.replicate 6 (.advance 1))).daemons.all
      (fun e => e.opts.inst = 0 → e.extracted = false) = true := by decide
  have none := of_decide_eq_true (all_eq_true.mp idle e listed) zero
  rw [extracted] at none
  cases none

end CommonTools.Backend
