import CommonTools.FeDaemon.Orphans

namespace CommonTools.FeDaemon
open OrderedMaps Programs List OrderedMap Daemon

namespace Registry
variable (registry : Registry)

def HasApp (pid : Pid) : Prop := (registry.pidIdMap.find pid).isSome = true

def HasUtil (appId : Id) (pid : Pid) : Prop := ((registry.utilsOf appId).find pid).isSome = true

def Listed (pid : Pid) : Prop := (registry.appCleanupList.find pid).isSome = true

def Mentions (pid : Pid) : Prop := registry.HasApp pid ∨ registry.Listed pid ∨ ∃ appId, registry.HasUtil appId pid

theorem hasApp_added (appPid pid : Pid) : (registry.added appPid).HasApp pid ↔ registry.HasApp pid ∨ pid = appPid ∧ appPid ≠ 0 := by
  unfold HasApp added
  by_cases zero : appPid = 0
  · rw [if_pos zero]; simp [zero]
  · rw [if_neg zero,find_insert]
    by_cases same : pid = appPid
    · rw [if_pos same]; exact iff_of_true rfl (.inr ⟨same,zero⟩)
    · simp [same]

theorem hasApp_eraseApp (appId : Id) (appPid pid : Pid) :
    (registry.eraseApp appId appPid).HasApp pid ↔ registry.HasApp pid ∧ ¬ (pid = appPid ∧ 0 < appPid.toInt) := by
  unfold HasApp eraseApp
  by_cases positive : 0 < appPid.toInt
  · by_cases same : pid = appPid
    · subst same; simp [positive]
    · simp [positive,same]
  · simp [positive]

theorem hasUtil_track (appId other : Id) (utilPid pid : Pid) (signum : Int) :
    (registry.track appId utilPid signum).HasUtil other pid ↔ registry.HasUtil other pid ∨ other = appId ∧ pid = utilPid := by
  unfold HasUtil utilsOf track
  by_cases same : other = appId
  · subst same
    by_cases equal : pid = utilPid
    · simp [equal]
    · simp [equal]
  · simp [same]

theorem hasUtil_eraseUtils (appId other : Id) {pid : Pid} :
    (registry.eraseUtils appId).HasUtil other pid ↔ other ≠ appId ∧ registry.HasUtil other pid := by
  unfold HasUtil utilsOf eraseUtils
  by_cases same : other = appId
  · simp [same]
  · simp [same]

theorem listed_cleanUp : (registry.cleanUp launcherPid).Listed pid ↔ pid = launcherPid ∨ registry.Listed pid := by
  unfold Listed cleanUp
  by_cases same : pid = launcherPid
  · simp [same]
  · simp [same]

theorem adopt_eq (instance' : MPIRInstance) : ∃ mpirMap, registry.adopt instance' = {registry.added instance'.launcherPid with mpirMap := mpirMap} := by
  unfold adopt emplaceMPIR
  split
  · exact ⟨_,rfl⟩
  · exact ⟨_,rfl⟩

-- No process is in two places, and what can be ended or looked at is an application's.
structure Apart (registry : Registry) : Prop where
  utils : ∀ appId other pid, registry.HasUtil appId pid → registry.HasUtil other pid → appId = other
  apps : ∀ appId pid, registry.HasUtil appId pid → ¬ registry.HasApp pid
  cleanups : ∀ pid, registry.Listed pid → registry.HasApp pid ∧ 0 < pid.toInt
  known : ∀ appId pid, registry.idPidMap.find appId = some pid → pid ≠ 0 → registry.HasApp pid
  unique : ∀ appId other pid, registry.idPidMap.find appId = some pid → registry.idPidMap.find other = some pid →
    pid ≠ 0 → appId = other

section Preserving
variable {registry}

theorem apart_start : start.Apart := by
  refine ⟨fun _ _ _ wrong => ?_,fun _ _ wrong => ?_,fun _ wrong => ?_,fun _ _ wrong => ?_,fun _ _ _ wrong => ?_⟩ <;> cases wrong

theorem apart_added (apart : registry.Apart) (free : registry.Free appPid) (apps : ∀ appId, ¬ registry.HasUtil appId appPid) :
    (registry.added appPid).Apart := by
  refine ⟨apart.utils,?_,?_,?_,?_⟩
  · intro appId pid util known
    rcases (hasApp_added registry appPid pid).mp known with old | ⟨same,_⟩
    · exact apart.apps appId pid util old
    · exact apps appId (same ▸ util)
  · intro pid listed
    obtain ⟨known,positive⟩ := apart.cleanups pid listed
    exact ⟨(hasApp_added registry appPid pid).mpr (.inl known),positive⟩
  · intro appId pid found nonzero
    refine (hasApp_added registry appPid pid).mpr ?_
    simp only [added,find_insert] at found
    split at found
    · cases found; exact .inr ⟨rfl,nonzero⟩
    · exact .inl (apart.known appId pid found nonzero)
  · intro appId other pid found found' nonzero
    have fresh : ∀ id, registry.idPidMap.find id = some appPid → appPid = 0 := by
      intro id filed
      by_contra nonzero
      have known := apart.known id appPid filed nonzero
      rw [HasApp,free.resolve_left nonzero] at known
      cases known
    simp only [added,find_insert] at found found'
    split at found
    · cases found
      split at found'
      · rename_i same same'; exact same.trans same'.symm
      · exact absurd (fresh other found') nonzero
    · split at found'
      · cases found'; exact absurd (fresh appId found) nonzero
      · exact apart.unique appId other pid found found' nonzero

theorem apart_track (apart : registry.Apart) (stranger : ¬ registry.HasApp utilPid)
    (only : ∀ other, other ≠ appId → ¬ registry.HasUtil other utilPid) : (registry.track appId utilPid signum).Apart := by
  refine ⟨?_,?_,apart.cleanups,apart.known,apart.unique⟩
  · intro one two pid first second
    rcases (hasUtil_track registry appId one utilPid pid signum).mp first with old | ⟨same,equal⟩
    · rcases (hasUtil_track registry appId two utilPid pid signum).mp second with old' | ⟨same',equal'⟩
      · exact apart.utils one two pid old old'
      · by_contra differs
        exact only one (same' ▸ differs) (equal' ▸ old)
    · rcases (hasUtil_track registry appId two utilPid pid signum).mp second with old' | ⟨same',equal'⟩
      · by_contra differs
        exact only two (fun wrong => differs (same.trans wrong.symm)) (equal ▸ old')
      · exact same.trans same'.symm
  · intro other pid util
    rcases (hasUtil_track registry appId other utilPid pid signum).mp util with old | ⟨_,equal⟩
    · exact apart.apps other pid old
    · exact equal ▸ stranger

theorem apart_fewer {registry' : Registry} (apart : registry.Apart) (sameIds : registry'.idPidMap = registry.idPidMap)
    (samePids : registry'.pidIdMap = registry.pidIdMap) (utils : ∀ appId pid, registry'.HasUtil appId pid → registry.HasUtil appId pid)
    (list : ∀ pid, registry'.Listed pid → registry.Listed pid) : registry'.Apart := by
  have apps : ∀ pid, registry'.HasApp pid ↔ registry.HasApp pid := by intro pid; rw [HasApp,samePids]; rfl
  refine ⟨?_,?_,?_,?_,?_⟩
  · exact fun appId other pid first second => apart.utils appId other pid (utils _ _ first) (utils _ _ second)
  · exact fun appId pid util known => apart.apps appId pid (utils _ _ util) ((apps pid).mp known)
  · intro pid listed
    obtain ⟨known,positive⟩ := apart.cleanups pid (list pid listed)
    exact ⟨(apps pid).mpr known,positive⟩
  · rw [sameIds]; exact fun appId pid found nonzero => (apps pid).mpr (apart.known appId pid found nonzero)
  · rw [sameIds]; exact apart.unique

structure Erased (registry registry' : Registry) (appId : Id) (appPid : Pid) : Prop where
  ids : registry'.idPidMap = registry.idPidMap.erase appId
  apps : ∀ pid, registry'.HasApp pid ↔ registry.HasApp pid ∧ ¬ (pid = appPid ∧ 0 < appPid.toInt)
  utils : ∀ other pid, registry'.HasUtil other pid ↔ other ≠ appId ∧ registry.HasUtil other pid
  list : ∀ pid, registry'.Listed pid ↔ pid ≠ appPid ∧ registry.Listed pid

theorem erased_deregister (registry : Registry) (appId : Id) (appPid : Pid) :
    registry.Erased (registry.deregister appId appPid) appId appPid := by
  unfold deregister
  rw [terminateApp_eq]
  refine ⟨rfl,hasApp_eraseApp registry appId appPid,hasUtil_eraseUtils registry appId,fun pid => ?_⟩
  by_cases same : pid = appPid
  · simp [Listed,same]
  · simp [Listed,same,eraseUtils,eraseApp]

theorem erased_release (registry : Registry) (appId : Id) (appPid : Pid) :
    registry.Erased (registry.release appId appPid) appId appPid := by
  refine ⟨rfl,hasApp_eraseApp registry appId appPid,hasUtil_eraseUtils registry appId,fun pid => ?_⟩
  by_cases same : pid = appPid
  · simp [Listed,same,release,eraseUtils]
  · simp [Listed,same,release,eraseUtils]

theorem apart_erased (apart : registry.Apart) (known : registry.idPidMap.find appId = some appPid)
    (erased : registry.Erased registry' appId appPid) : registry'.Apart := by
  refine ⟨?_,?_,?_,?_,?_⟩
  · intro one two pid first second
    exact apart.utils one two pid ((erased.utils one pid).mp first).2 ((erased.utils two pid).mp second).2
  · intro other pid util app
    exact apart.apps other pid ((erased.utils other pid).mp util).2 ((erased.apps pid).mp app).1
  · intro pid listed
    obtain ⟨differs,before⟩ := (erased.list pid).mp listed
    obtain ⟨app,positive⟩ := apart.cleanups pid before
    exact ⟨(erased.apps pid).mpr ⟨app,fun both => differs both.1⟩,positive⟩
  · intro other pid found nonzero
    rw [erased.ids,find_erase] at found
    split at found
    · cases found
    · rename_i differs
      refine (erased.apps pid).mpr ⟨apart.known other pid found nonzero,fun both => differs ?_⟩
      exact apart.unique other appId pid found (both.1 ▸ known) nonzero
  · intro one two pid first second nonzero
    rw [erased.ids,find_erase] at first second
    split at first
    · cases first
    · split at second
      · cases second
      · exact apart.unique one two pid first second nonzero

end Preserving

end Registry

section Steps
variable (host : Host) (registry : Registry)

def Command.rises (command : Command) : List Pid :=
  (command.forks host registry).toList ++ (command.appPid host registry).toList ++
    ((command.utilPid host registry).map Prod.snd).toList ++
    match command with
    | .launchMPIRShim _ _ => host.shimPid.toList
    | _ => []

def Command.kills : Command → List Pid
  | .checkApp appId => ((registry.idPidMap.find appId).filter (· ≠ 0)).toList
  | .launchMPIRShim _ _ => host.shimPid.toList
  | _ => []

end Steps

namespace Happening
variable (daemon : Daemon)

def rises : Happening → List Pid
  | .request host command => command.rises host daemon.registry
  | _ => []

def reaps : Happening → List Pid
  | .request host command => (daemon.sent (.request host command)).map Prod.fst ++ (command.waits host daemon.registry).toList
  | .child code pid => if code = .exited ∧ 1 < pid.toInt ∧ (daemon.registry.appCleanupList.find pid).isSome = true then [pid] else []
  | .removed appId => (daemon.sent (.removed appId)).map Prod.fst

def acts : Happening → List Pid
  | .request host command => (daemon.sent (.request host command)).map Prod.fst ++ command.kills host daemon.registry
  | .child _ _ => []
  | .removed appId => (daemon.sent (.removed appId)).map Prod.fst

end Happening

-- The daemon with the pids it has waited for that are not in use again.
structure Reaper where
  daemon : Daemon
  reaped : List Pid

def Reaper.start : Reaper := ⟨Daemon.start,[]⟩

def Reaper.next (reaper : Reaper) (happening : Happening) : Reaper where
  daemon := reaper.daemon.next happening
  reaped := without reaper.reaped (happening.rises reaper.daemon) ++ happening.reaps reaper.daemon

structure Reaper.Safe (reaper : Reaper) : Prop where
  forgotten : ∀ pid ∈ reaper.reaped, ¬ reaper.daemon.registry.Mentions pid
  untouched : ∀ happening : Happening, ∀ pid ∈ happening.acts reaper.daemon, pid ∉ happening.rises reaper.daemon → pid ∉ reaper.reaped
  once : ∀ happening : Happening, ((reaper.daemon.sent happening).map Prod.fst).Nodup
  shutdown : (reaper.daemon.registry.shutdownSent.map Prod.fst).Nodup ∧
    ∀ pid ∈ reaper.daemon.registry.shutdownSent.map Prod.fst, pid ∉ reaper.reaped
  welcome : ∀ (host : Host) (command : Command) (pid : Pid), command.appPid host reaper.daemon.registry = some pid →
    pid ∈ reaper.reaped → reaper.daemon.registry.Free pid

-- The hypotheses under which nothing goes wrong: no synchronous utility is waited
-- for, no application that is to be cleaned up exits by itself, and nothing is
-- registered as two things at once.
structure Command.Orderly (host : Host) (registry : Registry) (command : Command) : Prop where
  sound : host.Sound
  patient : command.waits host registry = none
  app : ∀ pid, command.appPid host registry = some pid → ∀ appId, ¬ registry.HasUtil appId pid
  util : ∀ appId pid, command.utilPid host registry = some (appId,pid) →
    ¬ registry.HasApp pid ∧ ∀ other, other ≠ appId → ¬ registry.HasUtil other pid

def Happening.Orderly (daemon : Daemon) : Happening → Prop
  | .request host command => command.Orderly host daemon.registry
  | .child code pid => code = .exited → 1 < pid.toInt → ¬ daemon.registry.Listed pid
  | .removed _ => True

section Reaping
variable {registry : Registry} {host : Host} {command : Command}
open Registry

theorem apart_cleanUp (apart : registry.Apart) (app : registry.HasApp pid) (positive : 0 < pid.toInt) : (registry.cleanUp pid).Apart := by
  refine {apart with cleanups := ?_}
  intro other listed
  rcases (listed_cleanUp registry).mp listed with same | old
  · subst same; exact ⟨app,positive⟩
  · exact apart.cleanups other old

theorem apart_effect (apart : registry.Apart) (orderly : command.Orderly host registry) :
    ((command.effect host registry).apply registry).Apart := by
  have caused := effect_causes host command registry
  cases effect : command.effect host registry with
  | idle => exact apart
  | registers appPid => rw [effect] at caused; exact apart_added apart caused.1 (orderly.app appPid caused.2)
  | adopts instance' cleanUp =>
    rw [effect] at caused
    obtain ⟨free,named,request,_,obtained,_⟩ := caused
    have positive := obtained_positive orderly.sound obtained
    have added := apart_added apart free (orderly.app _ named)
    obtain ⟨mpirMap,adopted⟩ := adopt_eq registry instance'
    have kept : (registry.adopt instance').Apart := by rw [adopted]; exact {added with}
    cases cleanUp with
    | false => exact kept
    | true =>
      refine apart_cleanUp kept ?_ positive
      rw [adopted]
      exact (hasApp_added registry _ _).mpr (.inr ⟨rfl,fun zero => by rw [zero] at positive; simp at positive⟩)
  | tracks appId utilPid signum =>
    rw [effect] at caused
    obtain ⟨stranger,only⟩ := orderly.util appId utilPid caused.2.2
    exact apart_track apart stranger only
  | deregisters appId appPid => rw [effect] at caused; exact apart_erased apart caused.2 (erased_deregister registry appId appPid)
  | releases appId appPid => rw [effect] at caused; exact apart_erased apart caused.2 (erased_release registry appId appPid)
  | drops mpirId => exact {apart with}

theorem mentions_effect (mentioned : ((command.effect host registry).apply registry).Mentions pid) :
    registry.Mentions pid ∨ pid ∈ command.rises host registry := by
  have caused := effect_causes host command registry
  have app : ∀ {appPid}, command.appPid host registry = some appPid → appPid ∈ command.rises host registry := by
    intro appPid named
    simp [Command.rises,named]
  have erased : ∀ {registry' appId appPid}, registry.Erased registry' appId appPid → registry'.Mentions pid → registry.Mentions pid := by
    intro registry' appId appPid erased mentioned
    rcases mentioned with app | listed | ⟨other,util⟩
    · exact .inl ((erased.apps pid).mp app).1
    · exact .inr (.inl ((erased.list pid).mp listed).2)
    · exact .inr (.inr ⟨other,((erased.utils other pid).mp util).2⟩)
  have added : ∀ {appPid}, command.appPid host registry = some appPid → (registry.added appPid).Mentions pid →
      registry.Mentions pid ∨ pid ∈ command.rises host registry := by
    intro appPid named mentioned
    rcases mentioned with known | others
    · rcases (hasApp_added registry appPid pid).mp known with old | ⟨same,_⟩
      · exact .inl (.inl old)
      · exact .inr (same ▸ app named)
    · exact .inl (.inr others)
  cases effect : command.effect host registry with
  | registers appPid => rw [effect] at caused mentioned; exact added caused.2 mentioned
  | adopts instance' cleanUp =>
    rw [effect] at caused mentioned
    obtain ⟨mpirMap,adopted⟩ := adopt_eq registry instance'
    cases cleanUp with
    | false =>
      simp only [Effect.apply,adopted] at mentioned
      exact added caused.2.1 mentioned
    | true =>
      simp only [Effect.apply,if_true,adopted] at mentioned
      rcases mentioned with known | listed | utils
      · exact added caused.2.1 (.inl known)
      · rcases (listed_cleanUp _).mp listed with same | old
        · exact .inr (same ▸ app caused.2.1)
        · exact .inl (.inr (.inl old))
      · exact .inl (.inr (.inr utils))
  | tracks appId utilPid signum =>
    rw [effect] at caused mentioned
    rcases mentioned with known | listed | ⟨other,util⟩
    · exact .inl (.inl known)
    · exact .inl (.inr (.inl listed))
    · rcases (hasUtil_track registry appId other utilPid pid signum).mp util with old | ⟨_,same⟩
      · exact .inl (.inr (.inr ⟨other,old⟩))
      · exact .inr (by simp [Command.rises,caused.2.2,same])
  | deregisters appId appPid => rw [effect] at mentioned; exact .inl (erased (erased_deregister registry appId appPid) mentioned)
  | releases appId appPid => rw [effect] at mentioned; exact .inl (erased (erased_release registry appId appPid) mentioned)
  | _ => rw [effect] at mentioned; exact .inl mentioned

theorem erased_forgets (apart : registry.Apart) (erased : registry.Erased registry' appId appPid)
    (ended : registry.HasUtil appId pid ∨ pid = appPid ∧ registry.Listed pid) : ¬ registry'.Mentions pid := by
  rcases ended with util | ⟨same,listed⟩
  · have stranger := apart.apps appId pid util
    intro mentioned
    rcases mentioned with app | listed | ⟨other,util'⟩
    · exact stranger ((erased.apps pid).mp app).1
    · exact stranger (apart.cleanups pid ((erased.list pid).mp listed).2).1
    · obtain ⟨differs,before⟩ := (erased.utils other pid).mp util'
      exact differs (apart.utils other appId pid before util)
  · obtain ⟨app,positive⟩ := apart.cleanups pid listed
    intro mentioned
    rcases mentioned with app' | listed' | ⟨other,util⟩
    · exact ((erased.apps pid).mp app').2 ⟨same,same ▸ positive⟩
    · exact ((erased.list pid).mp listed').1 same
    · exact apart.apps other pid ((erased.utils other pid).mp util).2 app

theorem signals_mem {effect : Effect} (signalled : pid ∈ (effect.signals registry).map Prod.fst) :
    ∃ appId appPid, (effect = .deregisters appId appPid ∨ effect = .releases appId appPid) ∧
      (registry.HasUtil appId pid ∨ pid = appPid ∧ registry.Listed pid) := by
  cases effect with
  | deregisters appId appPid =>
    refine ⟨appId,appPid,.inl rfl,?_⟩
    rw [Effect.signals,map_append,mem_append] at signalled
    rcases signalled with util | app
    · exact .inl (mem_keys.mp util)
    · cases found : registry.appCleanupList.find appPid with
      | none => simp [found] at app
      | some signum =>
        have same : pid = appPid := by simpa [found] using app
        exact .inr ⟨same,by rw [same,Listed,found]; rfl⟩
  | releases appId appPid => exact ⟨appId,appPid,.inr rfl,.inl (mem_keys.mp signalled)⟩
  | _ => cases signalled

theorem signalled_forgotten (apart : registry.Apart) {effect : Effect} (signalled : pid ∈ (effect.signals registry).map Prod.fst) :
    ¬ (effect.apply registry).Mentions pid := by
  obtain ⟨appId,appPid,which,ended⟩ := signals_mem signalled
  rcases which with same | same
  · rw [same]; exact erased_forgets apart (erased_deregister registry appId appPid) ended
  · rw [same]; exact erased_forgets apart (erased_release registry appId appPid) ended

theorem signals_nodup (apart : registry.Apart) {effect : Effect} : ((effect.signals registry).map Prod.fst).Nodup := by
  cases effect with
  | deregisters appId appPid =>
    rw [Effect.signals,map_append]
    refine nodup_append.mpr ⟨(registry.utilsOf appId).keys_nodup,?_,?_⟩
    · cases registry.appCleanupList.find appPid <;> simp
    · intro pid util other app same
      cases found : registry.appCleanupList.find appPid with
      | none => simp [found] at app
      | some signum =>
        have listed : registry.Listed appPid := by rw [Listed,found]; rfl
        have equal : other = appPid := by simpa [found] using app
        subst equal same
        exact apart.apps appId _ (mem_keys.mp util) (apart.cleanups _ listed).1
  | releases appId appPid => exact (registry.utilsOf appId).keys_nodup
  | _ => exact nodup_nil

theorem shutdown_mem : pid ∈ registry.shutdownSent.map Prod.fst ↔ registry.Listed pid ∨ ∃ appId, registry.HasUtil appId pid := by
  rw [shutdownSent_eq,map_append,mem_append,OrderedMap.mem_keys,map_flatMap,or_comm]
  refine or_congr Iff.rfl ?_
  simp only [mem_flatMap,OrderedMap.mem_keys]
  constructor
  · rintro ⟨row,inside,util⟩
    have found := (find_mem row registry.utilMap).mpr inside
    exact ⟨row.1,by rw [HasUtil,utilsOf,found]; exact util⟩
  · rintro ⟨appId,util⟩
    cases found : registry.utilMap.find appId with
    | none => rw [HasUtil,utilsOf,found] at util; cases util
    | some set =>
      rw [HasUtil,utilsOf,found] at util
      exact ⟨(appId,set),(find_mem (appId,set) registry.utilMap).mp found,util⟩

theorem shutdown_nodup (apart : registry.Apart) : (registry.shutdownSent.map Prod.fst).Nodup := by
  have filed : ∀ row ∈ registry.utilMap.entries, ∀ pid ∈ row.2.entries.map Prod.fst, registry.HasUtil row.1 pid := by
    intro row inside pid util
    have found := (find_mem row registry.utilMap).mpr inside
    rw [HasUtil,utilsOf,found]
    exact mem_keys.mp util
  rw [shutdownSent_eq,map_append,map_flatMap]
  refine nodup_append.mpr ⟨nodup_flatMap.mpr ⟨fun row _ => row.2.keys_nodup,?_⟩,registry.appCleanupList.keys_nodup,?_⟩
  · refine List.Pairwise.imp_of_mem ?_ registry.utilMap.sorted
    intro one two first second below pid util util'
    exact ne_of_lt below (apart.utils one.1 two.1 pid (filed one first pid util) (filed two second pid util'))
  · intro pid inside other listed same
    subst same
    obtain ⟨row,present,util⟩ := mem_flatMap.mp inside
    exact apart.apps row.1 pid (filed row present pid util) (apart.cleanups pid (mem_keys.mp listed)).1

end Reaping

section Runs
variable {reaper : Reaper} {daemon : Daemon}
open Registry

structure Reaper.Kept (reaper : Reaper) : Prop where
  apart : reaper.daemon.registry.Apart
  forgotten : ∀ pid ∈ reaper.reaped, ¬ reaper.daemon.registry.Mentions pid

theorem listed_child (code : ChildCode) (pid : Pid) (listed : (ctiFeDaemonHandler daemon code pid).registry.Listed other) :
    daemon.registry.Listed other := by
  obtain ⟨more,handled⟩ := handler_effect
  rw [handled] at listed
  unfold Listed at listed ⊢
  split at listed
  · rw [find_erase] at listed
    split at listed
    · cases listed
    · exact listed
  · exact listed

theorem apart_child (apart : daemon.registry.Apart) : (ctiFeDaemonHandler daemon code pid).registry.Apart := by
  have fewer : ∀ other, _ → daemon.registry.Listed other := fun other => listed_child code pid
  obtain ⟨more,handled⟩ := handler_effect
  rw [handled] at fewer ⊢
  exact apart_fewer apart rfl rfl (fun _ _ util => util) fewer

theorem eraseUtils_mentions (mentioned : (daemon.registry.eraseUtils appId).Mentions pid) :
    daemon.registry.HasApp pid ∨ daemon.registry.Listed pid ∨ ∃ other, other ≠ appId ∧ daemon.registry.HasUtil other pid := by
  rcases mentioned with app | listed | ⟨other,util⟩
  · exact .inl app
  · exact .inr (.inl listed)
  · exact .inr (.inr ⟨other,(hasUtil_eraseUtils daemon.registry appId other).mp util⟩)

theorem mentions_next (mentioned : (daemon.next happening).registry.Mentions pid) :
    daemon.registry.Mentions pid ∨ pid ∈ happening.rises daemon := by
  cases happening with
  | request host command =>
    obtain ⟨launching,served⟩ := serve_effect host command daemon
    rw [Daemon.next,served] at mentioned
    exact mentions_effect mentioned
  | child code other =>
    refine .inl (mentioned.imp (fun app => ?_) (Or.imp (listed_child code other) fun utils => ?_))
    · obtain ⟨more,handled⟩ := handler_effect
      rwa [Daemon.next,handled] at app
    · obtain ⟨more,handled⟩ := handler_effect
      rwa [Daemon.next,handled] at utils
  | removed appId =>
    rw [Daemon.next,remove] at mentioned
    split at mentioned
    · exact .inl ((eraseUtils_mentions mentioned).imp id (Or.imp id fun others => others.imp fun _ => And.right))
    · exact .inl mentioned

theorem signalled_mentioned (signalled : pid ∈ (daemon.sent happening).map Prod.fst) : daemon.registry.Mentions pid := by
  cases happening with
  | request host command =>
    rw [sent_request] at signalled
    obtain ⟨appId,_,_,util | ⟨_,listed⟩⟩ := signals_mem signalled
    · exact .inr (.inr ⟨appId,util⟩)
    · exact .inr (.inl listed)
  | child code other =>
    obtain ⟨more,handled⟩ := handler_effect
    rw [sent,Daemon.next,handled,drop_length] at signalled
    cases signalled
  | removed appId =>
    rw [sent_removed] at signalled
    split at signalled
    · exact .inr (.inr ⟨appId,mem_keys.mp signalled⟩)
    · cases signalled

theorem apart_next (apart : daemon.registry.Apart) (orderly : happening.Orderly daemon) : (daemon.next happening).registry.Apart := by
  cases happening with
  | request host command =>
    obtain ⟨launching,served⟩ := serve_effect host command daemon
    rw [Daemon.next,served]
    have applied := apart_effect apart orderly
    exact {applied with}
  | child code pid => exact apart_child apart
  | removed appId =>
    rw [Daemon.next,remove]
    split
    · exact apart_fewer apart rfl rfl (fun _ _ util => ((hasUtil_eraseUtils daemon.registry appId _).mp util).2) fun _ listed => listed
    · exact apart

theorem reaps_forgotten (apart : daemon.registry.Apart) {happening : Happening} (orderly : happening.Orderly daemon)
    (reaped : pid ∈ happening.reaps daemon) : ¬ (daemon.next happening).registry.Mentions pid := by
  cases happening with
  | request host command =>
    obtain ⟨launching,served⟩ := serve_effect host command daemon
    have signalled : pid ∈ ((command.effect host daemon.registry).signals daemon.registry).map Prod.fst := by
      rw [Happening.reaps,orderly.patient,sent_request] at reaped
      simpa using reaped
    rw [Daemon.next,served]
    exact signalled_forgotten apart signalled
  | child code other =>
    have quiet : (Happening.child code other).reaps daemon = [] := if_neg fun all => orderly all.1 all.2.1 all.2.2
    rw [quiet] at reaped
    cases reaped
  | removed appId =>
    rw [Happening.reaps,sent_removed] at reaped
    split at reaped
    · rename_i pending
      rw [Daemon.next,remove,if_pos pending]
      have util := mem_keys.mp reaped
      have stranger := apart.apps appId pid util
      intro mentioned
      rcases eraseUtils_mentions mentioned with app | listed | ⟨other,differs,util'⟩
      · exact stranger app
      · exact stranger (apart.cleanups pid listed).1
      · exact differs (apart.utils other appId pid util' util)
    · cases reaped

theorem reaper_next (kept : reaper.Kept) (orderly : happening.Orderly reaper.daemon) : (reaper.next happening).Kept := by
  refine ⟨apart_next kept.apart orderly,fun pid gone mentioned => ?_⟩
  rcases mem_append.mp gone with old | new
  · obtain ⟨before,quiet⟩ := mem_without.mp old
    rcases mentions_next mentioned with known | rises
    · exact kept.forgotten pid before known
    · exact quiet rises
  · exact reaps_forgotten kept.apart orderly new mentioned

theorem acts_mentioned (apart : daemon.registry.Apart) {happening : Happening} (acted : pid ∈ happening.acts daemon) :
    daemon.registry.Mentions pid ∨ pid ∈ happening.rises daemon := by
  cases happening with
  | request host command =>
    rcases mem_append.mp acted with signalled | killed
    · exact .inl (signalled_mentioned signalled)
    · cases command with
      | checkApp appId =>
        obtain ⟨found,nonzero⟩ : daemon.registry.idPidMap.find appId = some pid ∧ pid ≠ 0 := by
          simpa [Command.kills,Option.filter_eq_some_iff] using killed
        exact .inl (.inl (apart.known appId pid found nonzero))
      | launchMPIRShim shim data => exact .inr (mem_append_right _ killed)
      | _ => cases killed
  | child code other => cases acted
  | removed appId => exact .inl (signalled_mentioned acted)

theorem sent_nodup (apart : daemon.registry.Apart) (happening : Happening) : ((daemon.sent happening).map Prod.fst).Nodup := by
  cases happening with
  | request host command => rw [sent_request]; exact signals_nodup apart
  | child code pid =>
    obtain ⟨more,handled⟩ := handler_effect
    rw [sent,Daemon.next,handled,drop_length]
    exact nodup_nil
  | removed appId =>
    rw [sent_removed]
    split
    · exact (daemon.registry.utilsOf appId).keys_nodup
    · exact nodup_nil

theorem reaper_safe (kept : reaper.Kept) : reaper.Safe := by
  refine ⟨kept.forgotten,?_,sent_nodup kept.apart,⟨shutdown_nodup kept.apart,?_⟩,?_⟩
  · intro happening pid acted quiet gone
    exact kept.forgotten pid gone ((acts_mentioned kept.apart acted).resolve_right quiet)
  · intro pid signalled gone
    exact kept.forgotten pid gone (.inr (shutdown_mem.mp signalled))
  · intro host command pid _ gone
    refine .inr (Option.not_isSome_iff_eq_none.mp fun known => ?_)
    exact kept.forgotten pid gone (.inl known)

end Runs

def ended : List Happening :=
  [.request bareHost (.registerApp 5),.request bareHost (.registerUtil 1 9),.request bareHost (.deregisterApp 1)]

def patientHost : Host := {forkingHost with waitpid := fun _ => .ok (some 0)}

-- A utility that was waited for stays in its set, and is signalled with it.
def waited : List Happening := [.request bareHost (.registerApp 5),.request patientHost (.forkExecvpUtil 1 1 noData)]

def launchingHost : Host :=
  {bareHost with
    findPath := some
    start := fun _ _ => .ok ⟨5⟩
    runToMPIRBreakpoint := fun _ => .ok ()
    getProctable := fun _ => .ok []}

-- An application that exited and was waited for keeps its pid from the next one.
def exited : List Happening := [.request launchingHost (.launchMPIR noData),.child .exited 5]

end CommonTools.FeDaemon
