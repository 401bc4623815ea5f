import CommonTools.Backend.StartOrder

namespace CommonTools.Backend
open Transfer Programs List
open Daemon hiding opts phase

def Daemon.mayRun (d : Daemon) : Bool := d.opts.binary.isSome && decide (d.phase ≠ .exited)

def Node.firstPid (n : Node) : Option Nat := (n.files.stage.bind Stage.pids).bind List.head?

def Live (n : Node) (pid : Nat) : Prop := ∃ d, n.daemons[pid]? = some d ∧ d.mayRun = true

def Covered (n : Node) : Prop := ∀ pid < n.daemons.length, (n.daemons[pid]?.any Daemon.mayRun) = true → n.firstPid = some pid

instance (n : Node) : Decidable (Covered n) := inferInstanceAs (Decidable (∀ pid < n.daemons.length, _ → _))

def CleansWell (starts : List Options) (n : Node) (event : Event) : Prop :=
  event = .clean → n.Cleanable starts → Covered n

instance (starts : List Options) (n : Node) (event : Event) : Decidable (CleansWell starts n event) :=
  inferInstanceAs (Decidable (_ → _ → _))

-- The count never gets past one, so the second slot takes every later pid.
theorem store_first {chain : PidChain} (full : chain.full = []) (idx : chain.last.idx = 1) (head : chain.last.pids.take 1 = [first]) :
    (chain.store pid).full = [] ∧ (chain.store pid).last.idx = 1 ∧ (chain.store pid).last.pids.take 1 = [first] := by
  refine ⟨full,rfl,?_⟩
  change (chain.last.pids.set chain.last.idx pid).take 1 = [first]
  rw [idx,take_set_of_le (Nat.le_refl 1)]
  exact head

theorem store_rest (rest : List Nat) (chain : PidChain) (full : chain.full = []) (idx : chain.last.idx = 1)
    (head : chain.last.pids.take 1 = [first]) : (rest.foldl PidChain.store chain).targets = [first] := by
  induction rest generalizing chain with
  | nil => simp [PidChain.targets,full,idx,head]
  | cons pid rest ih =>
    obtain ⟨full,idx,head⟩ := store_first full idx head
    exact ih _ full idx head

theorem targets_readPids : (readPids pids).targets = pids.take 1 := by
  cases pids with
  | nil => rfl
  | cons first rest => exact store_rest rest (PidChain.fresh.store first) rfl rfl rfl

theorem covered_live (covered : Covered n) (live : Live n pid) : n.firstPid = some pid := by
  obtain ⟨d,found,running⟩ := live
  exact covered pid (List.getElem?_eq_some_iff.mp found).1 (by rw [found]; exact running)

theorem live_covered (all : ∀ pid, Live n pid → n.firstPid = some pid) : Covered n := by
  intro pid _ running
  obtain ⟨d,found,running⟩ := (Option.any_eq_true _ _).mp running
  exact all pid ⟨d,found,running⟩

def Closes (n : Node) : CleanPhase → Prop
  | .opening => Covered n
  | .reading offset chain => Covered n ∧
      ∃ pids, n.files.stage = some ⟨some pids⟩ ∧ offset ≤ pids.length ∧ chain = readPids (pids.take offset)
  | .killing pids => ∀ pid, Live n pid → pid ∈ pids
  | _ => ∀ pid, ¬ Live n pid

structure Ending (n : Node) : Prop where
  sound : ∀ d ∈ n.daemons, d.Sound
  closes : ∀ c, n.cleaner = some c → Closes n c.phase

section Ending
variable {n n' : Node} {files files' : Files} {d d' : Daemon} {pid : Nat}

theorem advance_pids (present : files.stage = some ⟨some pids⟩) : ∃ more, (d.advance pid files).1.stage = some ⟨some (pids ++ more)⟩ := by
  have same : ∃ more, files.stage = some ⟨some (pids ++ more)⟩ := ⟨[],by rw [append_nil]; exact present⟩
  unfold advance
  split
  · split
    · unfold unpack
      split
      · split
        · exact ⟨[],by simp [present]⟩
        · exact same
      · split <;> exact same
    · exact same
  · simp only [record,present,Files.append]
    exact ⟨[pid],rfl⟩
  all_goals exact same

theorem advance_mayRun (running : (d.advance pid files).2.mayRun = true) : d.mayRun = true := by
  have opts := (advance_moved pid files d).opts
  unfold mayRun at running ⊢
  rw [opts] at running
  by_cases exited : d.phase = .exited
  · simp [advance,exited] at running
  · simpa [exited] using (Bool.and_eq_true_iff.mp running).1

theorem fail_mayRun (running : d.fail.mayRun = true) : d.mayRun = true := by
  unfold Daemon.fail at running
  split at running
  · rename_i here
    simpa [Daemon.mayRun,Daemon.to,here] using running
  · simp [Daemon.mayRun,Daemon.exit] at running

theorem put_live (found : n.daemons[pid]? = some d) (keeps : d'.mayRun = true → d.mayRun = true)
    (live : Live (n.put pid (files',d')) k) : Live n k := by
  obtain ⟨e,there,running⟩ := live
  by_cases same : pid = k
  · subst same
    have here : e = d' := by
      have now := List.getElem?_set_self (a := d') (List.getElem?_eq_some_iff.mp found).1
      exact Option.some.inj (there.symm.trans now)
    exact ⟨d,found,keeps (here ▸ running)⟩
  · exact ⟨e,by rw [← there]; exact (getElem?_set_ne same).symm,running⟩

theorem closes_worked (fewer : ∀ k, Live n' k → Live n k)
    (grown : ∀ pids, n.files.stage = some ⟨some pids⟩ → ∃ more, n'.files.stage = some ⟨some (pids ++ more)⟩)
    (closes : Closes n phase) : Closes n' phase := by
  have kept : Covered n → Covered n' := by
    intro covered
    apply live_covered
    intro k live
    have first := covered_live covered (fewer k live)
    unfold Node.firstPid at first ⊢
    obtain ⟨pids,opened,head⟩ := Option.bind_eq_some_iff.mp first
    obtain ⟨stage,there,recorded⟩ := Option.bind_eq_some_iff.mp opened
    obtain ⟨more,longer⟩ := grown pids (by rw [there,← recorded])
    rw [longer]
    cases pids with
    | nil => cases head
    | cons _ _ => exact head
  cases phase with
  | opening => exact kept closes
  | reading offset chain =>
    obtain ⟨covered,pids,opened,bound,read⟩ := closes
    obtain ⟨more,longer⟩ := grown pids opened
    refine ⟨kept covered,_,longer,by rw [length_append]; omega,?_⟩
    rw [take_append_of_le_length bound]
    exact read
  | killing pids | removing | unlinking paths | sweeping | finished => exact fun k live => closes k (fewer k live)

theorem put_ending (ending : Ending n) (found : n.daemons[pid]? = some d) (moved : d.Moved n.files files' d')
    (keeps : d'.mayRun = true → d.mayRun = true)
    (grown : ∀ pids, n.files.stage = some ⟨some pids⟩ → ∃ more, files'.stage = some ⟨some (pids ++ more)⟩) :
    Ending (n.put pid (files',d')) := by
  refine ⟨?_,fun c active => closes_worked (fun k => put_live found keeps) grown (ending.closes c active)⟩
  intro e inside
  rcases mem_or_eq_of_mem_set inside with old | rfl
  · exact ending.sound e old
  · exact moved.sound (ending.sound d (mem_of_getElem? found))

theorem kill_live (live : Live (n.kill pid) k) : Live n k ∧ k ≠ pid := by
  unfold Node.kill at live
  split at live
  · rename_i d found
    refine ⟨put_live found (fun running => by simp [mayRun,exit] at running) live,?_⟩
    rintro rfl
    obtain ⟨e,there,running⟩ := live
    have now := List.getElem?_set_self (a := d.exit) (List.getElem?_eq_some_iff.mp found).1
    cases Option.some.inj (there.symm.trans now)
    simp [mayRun,exit] at running
  · rename_i absent
    refine ⟨live,?_⟩
    rintro rfl
    obtain ⟨e,there,_⟩ := live
    rw [absent] at there
    cases there

theorem kill_sound (sound : ∀ d ∈ n.daemons, d.Sound) : ∀ d ∈ (n.kill pid).daemons, d.Sound := by
  unfold Node.kill
  split
  · rename_i d found
    intro e inside
    rcases mem_or_eq_of_mem_set inside with old | rfl
    · exact sound e old
    · have exited : d.Moved n.files n.files d.exit := exit_moved
      exact exited.sound (sound d (mem_of_getElem? found))
  · exact sound

theorem turned_ending (sound : ∀ d ∈ n.daemons, d.Sound) (closes : Closes n phase) : Ending (n.cleanerTo c phase) := by
  refine ⟨sound,?_⟩
  intro other active
  cases active
  cases phase <;> exact closes

theorem opened_pids (opened : n.files.stage = some ⟨some pids⟩) {offset : Nat} :
    (n.files.stage.bind Stage.pids).bind (·[offset]?) = pids[offset]? := by
  rw [opened]; rfl

theorem read_targets (covered : Covered n) (opened : n.files.stage = some ⟨some pids⟩) (live : Live n k) : k ∈ (readPids pids).targets := by
  have first := covered_live covered live
  unfold Node.firstPid at first
  rw [opened] at first
  rw [targets_readPids]
  cases pids with
  | nil => cases first
  | cons head rest => cases first; exact mem_cons_self

theorem cleaner_ending (ending : Ending n) (active : n.cleaner = some c) : Ending (c.advance n) := by
  have closes := ending.closes c active
  have sound := ending.sound
  unfold Cleaner.advance
  split
  · rename_i here
    rw [here] at closes
    split
    · rename_i pids opened
      exact turned_ending sound ⟨closes,pids,opened,Nat.zero_le _,rfl⟩
    · rename_i unopened
      refine turned_ending sound fun k live => ?_
      have first := covered_live closes live
      obtain ⟨pids,opened,_⟩ := Option.bind_eq_some_iff.mp first
      obtain ⟨stage,there,recorded⟩ := Option.bind_eq_some_iff.mp opened
      exact unopened pids (by rw [there,← recorded])
  · rename_i offset chain here
    rw [here] at closes
    obtain ⟨covered,pids,opened,bound,rfl⟩ := closes
    rw [opened_pids opened]
    split
    · rename_i pid found
      have below := (List.getElem?_eq_some_iff.mp found).1
      refine turned_ending sound ⟨covered,pids,opened,below,?_⟩
      rw [take_add_one,found]
      simp [readPids]
    · rename_i ended
      have all : pids.take offset = pids := take_of_length_le (getElem?_eq_none_iff.mp ended)
      rw [all]
      exact turned_ending sound fun k live => read_targets covered opened live
  · rename_i here
    rw [here] at closes
    exact turned_ending sound fun k live => absurd (closes k live) not_mem_nil
  · rename_i pid rest here
    rw [here] at closes
    refine turned_ending (kill_sound sound) fun k live => ?_
    obtain ⟨before,other⟩ := kill_live live
    exact (mem_cons.mp (closes k before)).resolve_left other
  · rename_i here
    rw [here] at closes
    exact turned_ending (n := n.unstaged) sound closes
  · rename_i here
    rw [here] at closes
    exact turned_ending sound closes
  · rename_i path rest here
    rw [here] at closes
    exact turned_ending (n := n.unlocked path) sound closes
  · rename_i here
    rw [here] at closes
    split
    · exact turned_ending sound closes
    · exact turned_ending (n := n.unstaged) sound closes
  · exact ending

theorem launched_ending (ending : Ending n) (idle : n.cleaner = none) : Ending (n.launched opts) := by
  refine ⟨?_,fun c active => by rw [show (n.launched opts).cleaner = none from idle] at active; cases active⟩
  intro d inside
  rcases mem_append.mp inside with old | new
  · exact ending.sound d old
  · rw [mem_singleton.mp new]
    exact ⟨nofun,nofun,nofun⟩

theorem next_ending (starts : List Options) (clean : Option Options) (n : Node) (event : Event) (ending : Ending n)
    (well : CleansWell starts n event) : Ending (n.next starts clean event) := by
  have moved := next_moves starts clean n event
  generalize n.next starts clean event = n' at moved
  cases moved with
  | still => exact ending
  | launched idle turn => exact launched_ending ending idle
  | worked found => exact put_ending ending found (advance_moved _ _ _) advance_mayRun fun pids => advance_pids
  | failed found =>
    exact put_ending ending found fail_moved fail_mayRun
      fun pids opened => ⟨[],by rw [append_nil]; exact opened⟩
  | called asked cleanable => exact ⟨ending.sound,fun c active => by cases active; exact well rfl cleanable⟩
  | tidied active => exact cleaner_ending ending active

end Ending

-- With every daemon that may run a tool first in the pid file when the clean-up
-- is called, none is running a tool once it has finished.
theorem destroy_leaves_none (starts : List Options) (clean : Option Options)
    (path : Reached (CleansWell starts) (Node.next starts clean) Node.start events n)
    (done : n.cleaner = some ⟨opts,.finished⟩) : ∀ d ∈ n.daemons, d.phase ≠ .tool := by
  have initial : Ending Node.start := ⟨nofun,nofun⟩
  have ending := reached_invariant initial (next_ending starts clean) path
  intro d inside tool
  obtain ⟨k,found⟩ := getElem?_of_mem inside
  have binary := (ending.sound d inside).binary (by simp [inStage,tool])
  exact ending.closes _ done k ⟨d,found,by simp [mayRun,binary,tool]⟩

def oneTool : World :=
  runSession (plainHost fun _ => none) plainApp "stage" "wlm" [.createManifest,
    .execManifest plainDelivery 0 "/t1" none none]

def cleanedUp : List Event := .clean :: List.replicate 9 .tidy

theorem destroy_leaves_none_single :
    (runNode plainApp oneTool (.launch :: List.replicate 6 (.advance 0))).daemons.any (·.phase = .tool) = true ∧
    (runNode plainApp oneTool (.launch :: List.replicate 6 (.advance 0) ++ cleanedUp)).cleaner.any (·.phase = .finished) = true ∧
    ∀ d ∈ (runNode plainApp oneTool (.launch :: List.replicate 6 (.advance 0) ++ cleanedUp)).daemons, d.phase ≠ .tool := by
  have path : Reached (CleansWell (startOptions oneTool)) (Node.next (startOptions oneTool) (cleanOptions plainApp oneTool))
      Node.start (.launch :: List.replicate 6 (.advance 0) ++ cleanedUp)
      (runNode plainApp oneTool (.launch :: List.replicate 6 (.advance 0) ++ cleanedUp)) := reached_run (by decide)
  have finished : (runNode plainApp oneTool (.launch :: List.replicate 6 (.advance 0) ++ cleanedUp)).cleaner.any
      (·.phase = .finished) = true := by decide
  obtain ⟨⟨opts,phase⟩,active,ended⟩ := (Option.any_eq_true _ _).mp finished
  cases of_decide_eq_true ended
  exact ⟨by decide,finished,destroy_leaves_none _ _ path active⟩

def firstRuns : List Event := .launch :: .launch :: List.replicate 6 (.advance 0)

def secondRuns : List Event := List.replicate 6 (.advance 1)

theorem second_tool_survives : (runNode plainApp twoTools (firstRuns ++ secondRuns ++ cleanedUp ++ [Event.tidy])).cleaner.any
      (·.phase = .finished) = true ∧
    (runNode plainApp twoTools (firstRuns ++ secondRuns ++ cleanedUp ++ [Event.tidy])).daemons.map (·.phase) = [.exited,.tool] ∧
    (runNode plainApp twoTools (firstRuns ++ cleanedUp)).cleaner.any (·.phase = .finished) = true ∧
    (runNode plainApp twoTools (firstRuns ++ cleanedUp ++ secondRuns)).daemons.map (·.phase) = [.exited,.tool] := by
  exact ⟨by decide,by decide,by decide,by decide⟩

end CommonTools.Backend
