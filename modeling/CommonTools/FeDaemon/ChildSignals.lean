import CommonTools.FeDaemon.Reaping

namespace CommonTools.FeDaemon
open OrderedMaps List Registry

-- The daemon, and the one SIGCHLD that may wait for it with what it says.
structure Signalled where
  daemon : Daemon
  pending : Option (ChildCode × Pid)

inductive Turn where
  | change (code : ChildCode) (pid : Pid)
  | deliver
  | removed (appId : Id)

-- A standard signal that is pending is not queued again.
def Signalled.next (s : Signalled) : Turn → Signalled
  | .change code pid => {s with pending := s.pending.or (some (code,pid))}
  | .deliver =>
    match s.pending with
    | none => s
    | some (code,pid) => ⟨ctiFeDaemonHandler s.daemon code pid,none⟩
  | .removed appId => {s with daemon := s.daemon.remove appId}

def Signalled.run (s : Signalled) (turns : List Turn) : Signalled := turns.foldl Signalled.next s

def Daemon.signalled (daemon : Daemon) (turns : List Turn) : Signalled := Signalled.run ⟨daemon,none⟩ turns

def ChildCode.ends : ChildCode → Bool
  | .exited | .killed | .dumped => true
  | .trapped | .stopped | .continued => false

def quiet (turns : List Turn) : Bool :=
  turns.foldl (fun before turn => match turn with
    | .change _ _ => false
    | .deliver => true
    | .removed _ => before) true

section Noticing
variable (daemon : Daemon)

structure ChildApplication (pid : Pid) : Prop where
  known : daemon.registry.HasApp pid
  child : 1 < pid.toInt

def Ended (turns : List Turn) (pid : Pid) : Prop := ∃ code, ChildCode.ends code = true ∧ Turn.change code pid ∈ turns

structure Noticed (registry : Registry) (pid : Pid) : Prop where
  unlisted : ¬ registry.Listed pid
  utils : ∀ appId, daemon.registry.pidIdMap.find pid = some appId → registry.utilMap.find appId = none ∧
    ∀ util ∈ (daemon.registry.utilsOf appId).entries, util ∈ registry.signals

-- The process exits by itself, and no other change of a child is still to be handled then.
def Alone (turns : List Turn) (pid : Pid) : Prop := ∃ before after, turns = before ++ .change .exited pid :: after ∧
  quiet before = true

def Heard (turns : List Turn) (appId : Id) : Prop := ∃ pid, 1 < pid.toInt ∧ daemon.registry.pidIdMap.find pid = some appId ∧
  Alone turns pid

structure Seen (turns : List Turn) (pid : Pid) : Prop where
  listed : daemon.registry.Listed pid → Alone turns pid
  utils : ∀ appId, daemon.registry.pidIdMap.find pid = some appId → (daemon.registry.utilMap.find appId).isSome = true →
    appId ∈ daemon.removing ∨ Heard daemon turns appId

end Noticing

section Following
variable {daemon : Daemon}

theorem signalled_snoc : daemon.signalled (turns ++ [turn]) = (daemon.signalled turns).next turn := by
  simp [Daemon.signalled,Signalled.run]

theorem pending_quiet : (daemon.signalled turns).pending = none ↔ quiet turns = true := by
  induction turns using reverseRecOn with
  | nil => simp [Daemon.signalled,Signalled.run,quiet]
  | append_singleton turns turn ih =>
    rw [signalled_snoc]
    cases turn with
    | change code pid => simp [Signalled.next,quiet]
    | deliver => cases held : (daemon.signalled turns).pending <;> simp [Signalled.next,held,quiet]
    | removed appId => simpa [Signalled.next,quiet] using ih

theorem alone_snoc : Alone (turns ++ [turn]) pid ↔ Alone turns pid ∨ turn = .change .exited pid ∧ quiet turns = true := by
  constructor
  · intro alone
    obtain ⟨before,after,parts,free⟩ := alone
    rcases eq_nil_or_concat' after with rfl | ⟨front,last,rfl⟩
    · obtain ⟨rfl,same⟩ := append_inj' parts rfl
      cases same
      exact .inr ⟨rfl,free⟩
    · rw [← cons_append,← append_assoc] at parts
      obtain ⟨rfl,_⟩ := append_inj' parts rfl
      exact .inl ⟨before,front,rfl,free⟩
  · intro either
    rcases either with earlier | ⟨rfl,free⟩
    · obtain ⟨before,after,rfl,free⟩ := earlier
      exact ⟨before,after ++ [turn],by simp,free⟩
    · exact ⟨turns,[],by simp,free⟩

theorem alone_grows (alone : Alone turns pid) : Alone (turns ++ [turn]) pid := alone_snoc.mpr (.inl alone)

theorem heard_grows (heard : Heard daemon turns appId) : Heard daemon (turns ++ [turn]) appId := by
  obtain ⟨pid,child,known,alone⟩ := heard
  exact ⟨pid,child,known,alone_grows alone⟩

theorem alone_aside (aside : ∀ pid, turn ≠ .change .exited pid) (alone : Alone (turns ++ [turn]) pid) : Alone turns pid :=
  (alone_snoc.mp alone).resolve_right fun raised => aside pid raised.1

def Registry.exitedUtils (registry : Registry) (pid : Pid) : List Id :=
  match registry.pidIdMap.find pid with
  | none => []
  | some appId => if (registry.utilMap.find appId).isSome then [appId] else []

theorem mem_exitedUtils {registry : Registry} : appId ∈ registry.exitedUtils pid ↔
    registry.pidIdMap.find pid = some appId ∧ (registry.utilMap.find appId).isSome = true := by
  unfold exitedUtils
  cases registry.pidIdMap.find pid with
  | none => simp
  | some own =>
    by_cases filed : (registry.utilMap.find own).isSome = true
    · simp only [filed,if_true,mem_singleton,Option.some.injEq]
      constructor
      · rintro rfl
        exact ⟨rfl,filed⟩
      · exact fun both => both.1.symm
    · simp only [filed,if_false,not_mem_nil,Option.some.injEq,false_iff,Bool.false_eq_true]
      intro both
      exact filed (both.1 ▸ both.2)

theorem handler_exited (child : 1 < pid.toInt) : ctiFeDaemonHandler daemon .exited pid = {daemon with
      registry := {daemon.registry with appCleanupList := daemon.registry.appCleanupList.erase pid}
      removing := daemon.removing ++ daemon.registry.exitedUtils pid} := by
  unfold ctiFeDaemonHandler sigchldHandler exitedUtils
  rw [if_pos ⟨rfl,child⟩]
  simp only [erase_listed]
  cases daemon.registry.pidIdMap.find pid with
  | none => simp
  | some appId => by_cases filed : (daemon.registry.utilMap.find appId).isSome = true <;> simp [filed]

theorem remove_own (own : appId ∈ daemon.removing) : daemon.remove appId =
    {daemon with registry := daemon.registry.eraseUtils appId, removing := daemon.removing.erase appId} := by
  simp [Daemon.remove,own]

theorem remove_other (other : appId ∉ daemon.removing) : daemon.remove appId = daemon := by
  simp [Daemon.remove,other]

def Daemon.Clears (daemon : Daemon) (appId : Id) : Prop := daemon.registry.utilMap.find appId = none ∨ appId ∈ daemon.removing

theorem clears_handler (clears : daemon.Clears appId) (child : 1 < pid.toInt) : (ctiFeDaemonHandler daemon .exited pid).Clears appId := by
  rw [handler_exited child]
  exact clears.imp_right fun inside => mem_append_left _ inside

theorem clears_own {pid : Pid} (child : 1 < pid.toInt) (known : daemon.registry.pidIdMap.find pid = some appId) :
    (ctiFeDaemonHandler daemon .exited pid).Clears appId := by
  rw [handler_exited child]
  cases filed : daemon.registry.utilMap.find appId with
  | none => exact .inl filed
  | some utils => exact .inr (mem_append_right _ (mem_exitedUtils.mpr ⟨known,by rw [filed]; rfl⟩))

theorem clears_remove (clears : daemon.Clears appId) : (daemon.remove other).Clears appId := by
  by_cases own : other ∈ daemon.removing
  · rw [remove_own own]
    by_cases same : appId = other
    · exact .inl (by simp [same,eraseUtils])
    · refine clears.imp (fun gone => ?_) fun inside => (mem_erase_of_ne same).mpr inside
      simpa [eraseUtils,same] using gone
  · rw [remove_other own]
    exact clears

structure Followed (daemon : Daemon) (turns : List Turn) (s : Signalled) : Prop where
  pids : s.daemon.registry.pidIdMap = daemon.registry.pidIdMap
  utils : ∀ appId, s.daemon.registry.utilMap.find appId = daemon.registry.utilMap.find appId ∨
    s.daemon.registry.utilMap.find appId = none ∧ ∀ util ∈ (daemon.registry.utilsOf appId).entries, util ∈ s.daemon.registry.signals
  caught : ∀ pid, 1 < pid.toInt → Alone turns pid → s.pending = some (.exited,pid) ∨
    ¬ s.daemon.registry.Listed pid ∧ ∀ appId, daemon.registry.pidIdMap.find pid = some appId → s.daemon.Clears appId
  begun : ∀ appId ∈ daemon.removing, s.daemon.Clears appId
  waiting : ∀ pid, s.pending = some (.exited,pid) → Alone turns pid
  fewer : ∀ pid, s.daemon.registry.Listed pid → daemon.registry.Listed pid
  taken : ∀ pid, daemon.registry.Listed pid → s.daemon.registry.Listed pid ∨ Alone turns pid
  cause : ∀ appId, s.daemon.registry.utilMap.find appId ≠ daemon.registry.utilMap.find appId ∨ appId ∈ s.daemon.removing →
    appId ∈ daemon.removing ∨ Heard daemon turns appId

variable {turns : List Turn} {s : Signalled}

theorem followed_start : Followed daemon [] ⟨daemon,none⟩ where
  pids := rfl
  utils := fun _ => .inl rfl
  caught := by
    intro pid _ alone
    obtain ⟨before,after,parts,_⟩ := alone
    simp at parts
  begun := fun _ inside => .inr inside
  waiting := nofun
  fewer := fun _ listed => listed
  taken := fun _ listed => .inl listed
  cause := fun _ reason => .inl (reason.resolve_left fun differs => differs rfl)

theorem followed_change (same : daemon.signalled turns = s) (followed : Followed daemon turns s) :
    Followed daemon (turns ++ [.change code pid]) (s.next (.change code pid)) where
  pids := followed.pids
  utils := followed.utils
  caught := by
    intro other child alone
    rcases alone_snoc.mp alone with earlier | ⟨raised,free⟩
    · refine (followed.caught other child earlier).imp_left fun waits => ?_
      simp [Signalled.next,waits]
    · cases raised
      have held : s.pending = none := same ▸ pending_quiet.mpr free
      exact .inl (by simp [Signalled.next,held])
  begun := followed.begun
  waiting := by
    intro other waits
    cases held : s.pending with
    | none =>
      simp only [Signalled.next,held,Option.none_or,Option.some.injEq,Prod.mk.injEq] at waits
      obtain ⟨rfl,rfl⟩ := waits
      exact alone_snoc.mpr (.inr ⟨rfl,pending_quiet.mp (same ▸ held)⟩)
    | some first =>
      simp only [Signalled.next,held,Option.some_or] at waits
      exact alone_grows (followed.waiting other (held.trans waits))
  fewer := followed.fewer
  taken := fun other listed => (followed.taken other listed).imp_right alone_grows
  cause := fun appId reason => (followed.cause appId reason).imp_right heard_grows

theorem followed_aside (aside : ∀ pid, turn ≠ .change .exited pid) (followed : Followed daemon turns s)
    (kept : ∀ pid, 1 < pid.toInt → s.pending = some (.exited,pid) → pending = some (.exited,pid))
    (back : ∀ pid, pending = some (.exited,pid) → s.pending = some (.exited,pid)) :
    Followed daemon (turns ++ [turn]) ⟨s.daemon,pending⟩ where
  pids := followed.pids
  utils := followed.utils
  caught := fun pid child alone => (followed.caught pid child (alone_aside aside alone)).imp_left (kept pid child)
  begun := followed.begun
  waiting := fun pid waits => alone_grows (followed.waiting pid (back pid waits))
  fewer := followed.fewer
  taken := fun pid listed => (followed.taken pid listed).imp_right alone_grows
  cause := fun appId reason => (followed.cause appId reason).imp_right heard_grows

theorem followed_exited (followed : Followed daemon turns s) {pid : Pid} (held : s.pending = some (.exited,pid)) (child : 1 < pid.toInt) :
    Followed daemon (turns ++ [.deliver]) ⟨ctiFeDaemonHandler s.daemon .exited pid,none⟩ where
  pids := by
    rw [handler_exited child]
    exact followed.pids
  utils := by
    rw [handler_exited child]
    exact followed.utils
  caught := by
    intro other own alone
    refine .inr ?_
    rcases followed.caught other own (alone_aside (by simp) alone) with waits | ⟨unlisted,clears⟩
    · rw [held] at waits
      cases waits
      refine ⟨by simp [handler_exited child,Registry.Listed],fun appId known => clears_own child ?_⟩
      rw [followed.pids]
      exact known
    · refine ⟨fun listed => unlisted ?_,fun appId known => clears_handler (clears appId known) child⟩
      simp only [handler_exited child,Registry.Listed,OrderedMap.find_erase] at listed ⊢
      split at listed
      · cases listed
      · exact listed
  begun := fun appId inside => clears_handler (followed.begun appId inside) child
  waiting := nofun
  fewer := by
    intro other listed
    refine followed.fewer other ?_
    simp only [handler_exited child,Registry.Listed,OrderedMap.find_erase] at listed ⊢
    split at listed
    · cases listed
    · exact listed
  taken := by
    intro other listed
    rcases followed.taken other listed with still | alone
    · by_cases own : other = pid
      · subst own
        exact .inr (alone_grows (followed.waiting other held))
      · refine .inl ?_
        simpa [handler_exited child,Registry.Listed,own] using still
    · exact .inr (alone_grows alone)
  cause := by
    intro appId reason
    rw [handler_exited child] at reason
    rcases reason with differs | inside
    · exact (followed.cause appId (.inl differs)).imp_right heard_grows
    · rcases mem_append.mp inside with earlier | new
      · exact (followed.cause appId (.inr earlier)).imp_right heard_grows
      · have known := (mem_exitedUtils.mp new).1
        rw [followed.pids] at known
        exact .inr ⟨pid,child,known,alone_grows (followed.waiting pid held)⟩

theorem followed_deliver (followed : Followed daemon turns s) : Followed daemon (turns ++ [.deliver]) (s.next .deliver) := by
  cases held : s.pending with
  | none =>
    have same : s.next .deliver = s := by simp [Signalled.next,held]
    rw [same]
    exact followed_aside (by simp) followed (fun _ _ waits => waits) fun _ waits => waits
  | some info =>
    obtain ⟨code,pid⟩ := info
    have next : s.next .deliver = ⟨ctiFeDaemonHandler s.daemon code pid,none⟩ := by simp [Signalled.next,held]
    rw [next]
    by_cases handles : code = .exited ∧ 1 < pid.toInt
    · obtain ⟨rfl,child⟩ := handles
      exact followed_exited followed held child
    · rw [ctiFeDaemonHandler,if_neg handles]
      refine followed_aside (by simp) followed (fun other child waits => ?_) nofun
      rw [held] at waits
      cases waits
      exact absurd ⟨rfl,child⟩ handles

theorem followed_removed (followed : Followed daemon turns s) : Followed daemon (turns ++ [.removed appId]) (s.next (.removed appId)) := by
  by_cases own : appId ∈ s.daemon.removing
  · have listed : ∀ pid, (s.daemon.remove appId).registry.Listed pid ↔ s.daemon.registry.Listed pid := by
      intro pid
      rw [remove_own own]
      rfl
    refine ⟨?_,fun other => ?_,fun pid child alone => ?_,fun other inside => clears_remove (followed.begun other inside),
      fun pid waits => alone_grows (followed.waiting pid waits),fun pid still => followed.fewer pid ((listed pid).mp still),
      fun pid before => (followed.taken pid before).imp (listed pid).mpr alone_grows,fun other reason => ?_⟩
    · simp only [Signalled.next,remove_own own]
      exact followed.pids
    · simp only [Signalled.next,remove_own own]
      by_cases same : other = appId
      · subst same
        refine .inr ⟨by simp [eraseUtils],fun util inside => ?_⟩
        rcases followed.utils other with kept | ⟨_,sent⟩
        · refine mem_append_right _ ?_
          rw [kept]
          exact inside
        · exact mem_append_left _ (sent util inside)
      · have kept : (s.daemon.registry.eraseUtils appId).utilMap.find other = s.daemon.registry.utilMap.find other := by
          simp [eraseUtils,same]
        rw [kept]
        refine (followed.utils other).imp_right fun gone => ⟨gone.1,fun util inside => ?_⟩
        exact mem_append_left _ (gone.2 util inside)
    · refine (followed.caught pid child (alone_aside (by simp) alone)).imp_right fun handled => ?_
      exact ⟨fun still => handled.1 ((listed pid).mp still),fun other known => clears_remove (handled.2 other known)⟩
    · refine (followed.cause other ?_).imp_right heard_grows
      by_cases same : other = appId
      · exact .inr (same ▸ own)
      · simpa [Signalled.next,remove_own own,eraseUtils,same,mem_erase_of_ne same] using reason
  · have same : s.next (.removed appId) = ⟨s.daemon,s.pending⟩ := by simp [Signalled.next,remove_other own]
    rw [same]
    exact followed_aside (by simp) followed (fun _ _ waits => waits) fun _ waits => waits

theorem followed_run (daemon : Daemon) (turns : List Turn) : Followed daemon turns (daemon.signalled turns) := by
  induction turns using reverseRecOn with
  | nil => exact followed_start
  | append_singleton turns turn ih =>
    rw [signalled_snoc]
    cases turn with
    | change code pid => exact followed_change rfl ih
    | deliver => exact followed_deliver ih
    | removed appId => exact followed_removed ih

end Following

section Results
variable {daemon : Daemon} {turns : List Turn}

theorem utils_gone (handled : quiet turns = true) (finished : (daemon.signalled turns).daemon.removing = [])
    (reason : appId ∈ daemon.removing ∨ Heard daemon turns appId) : (daemon.signalled turns).daemon.registry.utilMap.find appId = none := by
  have followed := followed_run daemon turns
  have clears : (daemon.signalled turns).daemon.Clears appId := by
    rcases reason with begun | ⟨pid,child,known,alone⟩
    · exact followed.begun appId begun
    · rcases followed.caught pid child alone with waits | done
      · rw [pending_quiet.mpr handled] at waits
        cases waits
      · exact done.2 appId known
  rcases clears with gone | inside
  · exact gone
  · rw [finished] at inside
    cases inside

theorem noticed_iff (handled : quiet turns = true) (finished : (daemon.signalled turns).daemon.removing = []) (child : 1 < pid.toInt) :
    Noticed daemon (daemon.signalled turns).daemon.registry pid ↔ Seen daemon turns pid := by
  have followed := followed_run daemon turns
  constructor
  · intro noticed
    refine ⟨fun listed => (followed.taken pid listed).resolve_left noticed.unlisted,fun appId known filed => ?_⟩
    refine followed.cause appId (.inl fun same => ?_)
    rw [← same,(noticed.utils appId known).1] at filed
    cases filed
  · intro seen
    refine ⟨fun listed => ?_,fun appId known => ?_⟩
    · rcases followed.caught pid child (seen.listed (followed.fewer pid listed)) with waits | done
      · rw [pending_quiet.mpr handled] at waits
        cases waits
      · exact done.1 listed
    · have gone : (daemon.signalled turns).daemon.registry.utilMap.find appId = none := by
        cases filed : daemon.registry.utilMap.find appId with
        | none => exact (followed.utils appId).elim (fun kept => kept.trans filed) And.left
        | some utils => exact utils_gone handled finished (seen.utils appId known (by rw [filed]; rfl))
      refine ⟨gone,?_⟩
      rcases followed.utils appId with kept | ⟨_,sent⟩
      · intro util inside
        have empty : daemon.registry.utilsOf appId = .empty := by rw [utilsOf,← kept,gone]; rfl
        rw [empty] at inside
        cases inside
      · exact sent

end Results

-- Once the signals are handled and the threads have come to their end, every application that
-- ended is noticed exactly if each exited by itself while no other signal was pending.
theorem ended_applications_noticed (daemon : Daemon) (turns : List Turn) (handled : quiet turns = true)
    (finished : (daemon.signalled turns).daemon.removing = []) :
    (∀ pid, ChildApplication daemon pid → Ended turns pid → Noticed daemon (daemon.signalled turns).daemon.registry pid) ↔
      ∀ pid, ChildApplication daemon pid → Ended turns pid → Seen daemon turns pid :=
  forall₃_congr fun _ application _ => noticed_iff handled finished application.child

def secondHost : Host := {launchingHost with start := fun _ _ => .ok ⟨6⟩}

def pair : Daemon :=
  [Happening.request launchingHost (.launchMPIR noData),.request secondHost (.launchMPIR noData),
    .request bareHost (.registerUtil 1 9),.request bareHost (.registerUtil 2 10)].foldl Daemon.next Daemon.start

theorem seen_pair (known : pair.registry.pidIdMap.find pid = some appId)
    (child : 1 < pid.toInt) (alone : Alone turns pid) : Seen pair turns pid := by
  refine ⟨fun _ => alone,fun other same _ => ?_⟩
  rw [known] at same
  cases same
  exact .inr ⟨pid,child,known,alone⟩

def oneByOne : List Turn := [.change .exited 5,.deliver,.removed 1,.change .exited 6,.deliver,.removed 2]

theorem applications_pair : ChildApplication pair 5 ∧ ChildApplication pair 6 :=
  ⟨⟨by unfold Registry.HasApp; decide,by decide⟩,⟨by unfold Registry.HasApp; decide,by decide⟩⟩

theorem ended_applications_noticed_pair : Noticed pair (pair.signalled oneByOne).daemon.registry 5 ∧
    Noticed pair (pair.signalled oneByOne).daemon.registry 6 := by
  have all := (ended_applications_noticed pair oneByOne (by decide) (by decide)).mpr
  have noticed := all fun pid application ended => by
    obtain ⟨code,_,changed⟩ := ended
    simp only [oneByOne,mem_cons,not_mem_nil,Turn.change.injEq,reduceCtorEq,false_or,or_false] at changed
    rcases changed with ⟨_,rfl⟩ | ⟨_,rfl⟩
    · exact seen_pair (show pair.registry.pidIdMap.find 5 = some 1 by decide) (by decide) ⟨[],_,rfl,rfl⟩
    · exact seen_pair (show pair.registry.pidIdMap.find 6 = some 2 by decide) (by decide)
        ⟨[.change .exited 5,.deliver,.removed 1],_,rfl,rfl⟩
  exact ⟨noticed 5 applications_pair.1 ⟨.exited,rfl,by simp [oneByOne]⟩,noticed 6 applications_pair.2 ⟨.exited,rfl,by simp [oneByOne]⟩⟩

def Lost (turns : List Turn) (pid : Pid) : Prop :=
  ChildApplication pair pid ∧ Ended turns pid ∧ quiet turns = true ∧ (pair.signalled turns).daemon.removing = [] ∧
    ¬ Noticed pair (pair.signalled turns).daemon.registry pid

theorem ended_applications_lost : Lost [.change .killed 5,.deliver] 5 ∧
    Lost [.change .exited 5,.change .exited 6,.deliver,.removed 1] 6 := by
  refine ⟨⟨applications_pair.1,⟨.killed,rfl,by simp⟩,rfl,by decide,fun noticed => noticed.unlisted ?_⟩,
    ⟨applications_pair.2,⟨.exited,rfl,by simp⟩,rfl,by decide,fun noticed => noticed.unlisted ?_⟩⟩
  · unfold Registry.Listed
    decide
  · unfold Registry.Listed
    decide

end CommonTools.FeDaemon
