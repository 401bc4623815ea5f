import CommonTools.FeDaemon.Effects

namespace CommonTools.FeDaemon
open OrderedMaps Programs List Registry OrderedMap

inductive ChildCode where
  | exited
  | killed
  | dumped
  | trapped
  | stopped
  | continued
  deriving DecidableEq

-- The globals, the ids whose utilities a thread of an exit is about to remove,
-- and every id that newId has given out.
structure Daemon where
  registry : Registry
  removing : List Id
  issued : List Id

def Daemon.start : Daemon := ⟨Registry.start,[],[]⟩

-- Between two requests children change, and threads come to their end.
inductive Happening where
  | request (host : Host) (command : Command)
  | child (code : ChildCode) (pid : Pid)
  | removed (appId : Id)

def sigchldHandler (daemon : Daemon) (exitedPid : Pid) : Daemon :=
  let registry := if (daemon.registry.appCleanupList.find exitedPid).isSome
    then {daemon.registry with appCleanupList := daemon.registry.appCleanupList.erase exitedPid}
    else daemon.registry
  match registry.pidIdMap.find exitedPid with
  | none => {daemon with registry := registry}
  | some exitedId =>
    if (registry.utilMap.find exitedId).isSome
    then {daemon with registry := registry,removing := daemon.removing ++ [exitedId]}
    else {daemon with registry := registry}

def ctiFeDaemonHandler (daemon : Daemon) (code : ChildCode) (pid : Pid) : Daemon :=
  if code = .exited ∧ 1 < pid.toInt then sigchldHandler daemon pid else daemon

def Daemon.serve (daemon : Daemon) (host : Host) (command : Command) : Daemon :=
  let registry := after (operate host command.type command daemon.registry)
  {daemon with
    registry := registry
    issued := daemon.issued ++ if registry.lastId = daemon.registry.lastId then [] else [registry.lastId]}

def Daemon.remove (daemon : Daemon) (appId : Id) : Daemon :=
  if appId ∈ daemon.removing
  then {daemon with registry := daemon.registry.eraseUtils appId,removing := daemon.removing.erase appId}
  else daemon

def Daemon.next (daemon : Daemon) : Happening → Daemon
  | .request host command => daemon.serve host command
  | .child code pid => ctiFeDaemonHandler daemon code pid
  | .removed appId => daemon.remove appId

def Command.NonNegative : Command → Prop
  | .registerApp appPid => 0 ≤ appPid.toInt
  | .registerUtil _ utilPid => 0 ≤ utilPid.toInt
  | .registerUtilWithSigkill _ utilPid => 0 ≤ utilPid.toInt
  | .attachMPIR _ launcherPid => 0 ≤ launcherPid.toInt
  | _ => True

def Happening.Proper (_ : Daemon) : Happening → Prop
  | .request host command => host.Sound ∧ command.NonNegative
  | _ => True

namespace Effect

def issues : Effect → Bool
  | .registers _ => true
  | .adopts _ _ => true
  | _ => false

def Proper : Effect → Prop
  | .registers appPid => 0 ≤ appPid.toInt
  | .adopts instance' _ => 0 < instance'.launcherPid.toInt
  | _ => True

end Effect

section Proper
variable {host : Host}

theorem obtained_positive (sound : host.Sound) {request : MPIRRequest}
    (obtained : ran (request.obtain host) registry = some instance') : 0 < instance'.launcherPid.toInt := by
  obtain ⟨registry',done⟩ := ran_some.mp obtained
  exact MPIRRequest.obtain_positive host sound done

section
variable (sound : host.Sound) {command : Command} (nonNegative : ∀ appPid, command = .registerApp appPid → 0 ≤ appPid.toInt)
include sound nonNegative

theorem appPid_nonNegative (named : command.appPid host registry = some appPid) : 0 ≤ appPid.toInt := by
  have launched : ∀ request : MPIRRequest, (ran (request.obtain host) registry).map MPIRInstance.launcherPid = some appPid →
      0 ≤ appPid.toInt := by
    intro request named
    obtain ⟨instance',obtained,rfl⟩ := Option.map_eq_some_iff.mp named
    exact Int.le_of_lt (obtained_positive sound obtained)
  cases command with
  | forkExecvpApp data =>
    obtain ⟨registry',done⟩ := ran_some.mp named
    obtain ⟨_,_,⟨pid,_,rfl⟩,_⟩ := (forkExec_ok host).mp done
    exact Int.le_of_lt pid.2
  | registerApp given => cases named; exact nonNegative _ rfl
  | launchMPIR data => exact launched (.launchMPIR data) named
  | launchMPIRShim shim data => exact launched (.launchMPIRShim shim data) named
  | attachMPIR launcherName launcherPid => exact launched (.attachMPIR launcherName launcherPid) named
  | _ => cases named

theorem effect_proper {registry : Registry} : (command.effect host registry).Proper := by
  have caused := effect_causes host command registry
  cases effect : command.effect host registry with
  | registers appPid => rw [effect] at caused; exact appPid_nonNegative sound nonNegative caused.2
  | adopts instance' cleanUp =>
    rw [effect] at caused
    obtain ⟨_,_,request,_,obtained,_⟩ := caused
    exact obtained_positive sound obtained
  | _ => trivial

end

end Proper

section Tables
variable {registry : Registry}

structure Registry.Consistent (registry : Registry) : Prop where
  inverse : InverseOn (· ≠ 0) registry.pidIdMap registry.idPidMap
  nonNegative : ∀ appId pid, registry.idPidMap.find appId = some pid → 0 ≤ pid.toInt
  utils : ∀ appId, (registry.utilMap.find appId).isSome = true → registry.Registered appId
  cleanups : ∀ pid, (registry.appCleanupList.find pid).isSome = true → ∃ appId, registry.idPidMap.find appId = some pid

theorem consistent_start : Registry.start.Consistent := by
  refine ⟨.empty,fun _ _ wrong => ?_,fun _ wrong => ?_,fun _ wrong => ?_⟩
  · cases wrong
  · cases wrong
  · cases wrong

theorem registered_added (known : registry.Registered appId) : (registry.added appPid).Registered appId := by
  simp only [Registry.Registered,added,find_insert] at known ⊢
  split
  · rfl
  · exact known

section
variable (consistent : registry.Consistent)
include consistent

theorem consistent_added (free : registry.Free appPid)
    (fresh : registry.idPidMap.find (registry.lastId + 1) = none) (proper : 0 ≤ appPid.toInt) : (registry.added appPid).Consistent := by
  have stays : ∀ appId, registry.Registered appId → (registry.added appPid).Registered appId := fun _ => registered_added
  unfold added at stays ⊢
  generalize registry.lastId + 1 = newest at fresh stays ⊢
  refine ⟨?_,?_,?_,?_⟩
  · by_cases zero : appPid = 0
    · rw [if_pos zero]
      exact consistent.inverse.insert_aside (by simp [zero]) fresh
    · rw [if_neg zero]
      exact consistent.inverse.insert (free.resolve_left zero) fresh
  · intro appId pid found
    rw [find_insert] at found
    split at found
    · cases found; exact proper
    · exact consistent.nonNegative appId pid found
  · intro appId filed
    exact stays appId (consistent.utils appId filed)
  · intro pid listed
    obtain ⟨appId,found⟩ := consistent.cleanups pid listed
    have other : appId ≠ newest := by intro same; rw [same,fresh] at found; cases found
    exact ⟨appId,by simpa [other] using found⟩

theorem consistent_track (known : registry.Registered appId) : (registry.track appId utilPid signum).Consistent := by
  refine {consistent with utils := ?_}
  intro other filed
  by_cases same : other = appId
  · subst same; exact known
  · simp only [track,find_insert,if_neg same] at filed
    exact consistent.utils other filed

theorem consistent_emplaceMPIR : (registry.emplaceMPIR mpirId instance').Consistent := by
  unfold emplaceMPIR
  split
  · exact consistent
  · exact {consistent with}

theorem consistent_cleanUp (owned : ∃ appId, registry.idPidMap.find appId = some pid) : (registry.cleanUp pid).Consistent := by
  refine {consistent with cleanups := ?_}
  intro other listed
  simp only [cleanUp,find_insert] at listed
  split at listed
  · rename_i same; subst same; exact owned
  · exact consistent.cleanups other listed

end

theorem consistent_erased {registry' : Registry} (consistent : registry.Consistent) (known : registry.idPidMap.find appId = some appPid)
    (sameIds : registry'.idPidMap = (registry.eraseApp appId appPid).idPidMap)
    (samePids : registry'.pidIdMap = (registry.eraseApp appId appPid).pidIdMap) (utils : registry'.utilMap = registry.utilMap.erase appId)
    (cleanups : registry'.appCleanupList = registry.appCleanupList.erase appPid) : registry'.Consistent := by
  have nonNegative := consistent.nonNegative appId appPid known
  refine ⟨?_,?_,?_,?_⟩
  · rw [sameIds,samePids]
    unfold eraseApp
    by_cases positive : 0 < appPid.toInt
    · rw [if_pos positive]
      exact consistent.inverse.erase known
    · have zero : appPid = 0 := BitVec.eq_of_toInt_eq (by simp; omega)
      rw [if_neg positive]
      exact consistent.inverse.erase_aside (by simp [zero]) known
  · intro other pid found
    simp only [sameIds,eraseApp,find_erase] at found
    split at found
    · cases found
    · exact consistent.nonNegative other pid found
  · intro other filed
    simp only [utils,Registry.Registered,sameIds,eraseApp,find_erase] at filed ⊢
    split
    · rename_i same; simp [same] at filed
    · rename_i differs; rw [if_neg differs] at filed; exact consistent.utils other filed
  · intro pid listed
    rw [cleanups,find_erase] at listed
    split at listed
    · cases listed
    · rename_i differs
      obtain ⟨owner,found⟩ := consistent.cleanups pid listed
      have other : owner ≠ appId := by intro same; rw [same,known] at found; cases found; exact differs rfl
      exact ⟨owner,by simpa [sameIds,eraseApp,other] using found⟩

theorem consistent_apply (consistent : registry.Consistent) (fresh : registry.idPidMap.find (registry.lastId + 1) = none)
    {effect : Effect} (fits : effect.Fits registry) (proper : effect.Proper) : (effect.apply registry).Consistent := by
  cases effect with
  | idle => exact consistent
  | registers appPid => exact consistent_added consistent fits fresh proper
  | adopts instance' cleanUp =>
    have adopted : (registry.adopt instance').Consistent :=
      consistent_emplaceMPIR (consistent_added consistent fits fresh (Int.le_of_lt proper))
    cases cleanUp with
    | false => exact adopted
    | true =>
      refine consistent_cleanUp adopted ⟨registry.lastId + 1,?_⟩
      rw [adopt,emplaceMPIR_idPidMap,added,find_insert,if_pos rfl]
  | tracks appId utilPid signum => exact consistent_track consistent fits.1
  | deregisters appId appPid =>
    rw [Effect.apply,deregister,terminateApp_eq]
    exact consistent_erased consistent fits rfl rfl rfl rfl
  | releases appId appPid => exact consistent_erased consistent fits rfl rfl rfl rfl
  | drops mpirId => exact {consistent with}

end Tables

section Numbers
variable {registry : Registry} {daemon : Daemon}

theorem apply_lastId (effect : Effect) (registry : Registry) :
    (effect.apply registry).lastId = if effect.issues then registry.lastId + 1 else registry.lastId := by
  cases effect with
  | adopts instance' cleanUp =>
    have adopted : (registry.adopt instance').lastId = registry.lastId + 1 := by
      unfold adopt emplaceMPIR
      split <;> rfl
    cases cleanUp <;> exact adopted
  | deregisters appId appPid => rw [Effect.apply,deregister,terminateApp_eq]; rfl
  | _ => rfl

theorem apply_registered {effect : Effect} (known : (effect.apply registry).Registered appId) :
    registry.Registered appId ∨ effect.issues = true ∧ appId = registry.lastId + 1 := by
  have added : ∀ appPid, (registry.added appPid).Registered appId → registry.Registered appId ∨ appId = registry.lastId + 1 := by
    intro appPid known
    simp only [Registry.Registered,added,find_insert] at known
    split at known
    · rename_i same; exact .inr same
    · exact .inl known
  have erased : ∀ other appPid, (registry.eraseApp other appPid).Registered appId → registry.Registered appId := by
    intro other appPid known
    simp only [Registry.Registered,eraseApp,find_erase] at known
    split at known
    · cases known
    · exact known
  cases effect with
  | registers appPid => exact (added appPid known).imp id fun same => ⟨rfl,same⟩
  | adopts instance' cleanUp =>
    have adopted : (registry.adopt instance').Registered appId := by cases cleanUp <;> exact known
    rw [adopt,Registry.Registered,emplaceMPIR_idPidMap] at adopted
    exact (added instance'.launcherPid adopted).imp id fun same => ⟨rfl,same⟩
  | deregisters other appPid =>
    rw [Effect.apply,deregister,terminateApp_eq] at known
    exact .inl (erased other appPid known)
  | releases other appPid => exact .inl (erased other appPid known)
  | _ => exact .inl known

theorem serve_effect (host : Host) (command : Command) (daemon : Daemon) : ∃ launching, daemon.serve host command =
    ⟨((command.effect host daemon.registry).apply daemon.registry).launching launching,daemon.removing,
      daemon.issued ++ if (command.effect host daemon.registry).issues then [daemon.registry.lastId + 1] else []⟩ := by
  obtain ⟨launching,same⟩ := operate_effect host
  refine ⟨launching,?_⟩
  have last : (after (operate host command.type command daemon.registry)).lastId = _ :=
    (congrArg lastId same).trans (apply_lastId (command.effect host daemon.registry) daemon.registry)
  unfold Daemon.serve
  simp only [last]
  rw [same]
  cases (command.effect host daemon.registry).issues with
  | false | true => simp

theorem erase_listed : (if (registry.appCleanupList.find pid).isSome
      then {registry with appCleanupList := registry.appCleanupList.erase pid}
      else registry) = {registry with appCleanupList := registry.appCleanupList.erase pid} := by
  cases found : registry.appCleanupList.find pid with
  | none => rw [erase_absent found]; rfl
  | some signum => rfl

theorem handler_effect : ∃ more, ctiFeDaemonHandler daemon code pid =
    {daemon with
      registry := {daemon.registry with appCleanupList :=
        if code = .exited ∧ 1 < pid.toInt then daemon.registry.appCleanupList.erase pid else daemon.registry.appCleanupList}
      removing := daemon.removing ++ more} := by
  unfold ctiFeDaemonHandler
  by_cases handled : code = .exited ∧ 1 < pid.toInt
  · rw [if_pos handled,if_pos handled]
    unfold sigchldHandler
    simp only [erase_listed]
    cases daemon.registry.pidIdMap.find pid with
    | none => exact ⟨[],by simp⟩
    | some exitedId =>
      by_cases filed : (daemon.registry.utilMap.find exitedId).isSome = true
      · exact ⟨[exitedId],by simp [filed]⟩
      · exact ⟨[],by simp [filed]⟩
  · rw [if_neg handled,if_neg handled]
    exact ⟨[],by simp⟩

structure Daemon.Numbered (daemon : Daemon) : Prop where
  last : daemon.registry.lastId = BitVec.ofNat 32 daemon.issued.length
  issued : daemon.issued = (List.range daemon.issued.length).map fun n => BitVec.ofNat 32 (n + 1)
  registered : ∀ appId, daemon.registry.Registered appId → appId ∈ daemon.issued

theorem numbered_start : Daemon.start.Numbered := ⟨rfl,rfl,nofun⟩

theorem numbered_serve (numbered : daemon.Numbered) {command : Command} : (daemon.serve host command).Numbered := by
  obtain ⟨launching,served⟩ := serve_effect host command daemon
  rw [served]
  have last := apply_lastId (command.effect host daemon.registry) daemon.registry
  have next : daemon.registry.lastId + 1 = BitVec.ofNat 32 (daemon.issued.length + 1) := by
    rw [numbered.last,BitVec.ofNat_add]
    rfl
  cases issues : (command.effect host daemon.registry).issues with
  | false =>
    refine ⟨?_,?_,?_⟩
    · simpa [issues,Registry.launching] using last.trans (by simp [issues,numbered.last])
    · simpa using numbered.issued
    · intro appId known
      simpa using numbered.registered appId ((apply_registered known).resolve_right fun both => by simp [issues] at both)
  | true =>
    refine ⟨?_,?_,?_⟩
    · simp only [if_true,length_append,length_singleton,← next]
      simpa [issues,Registry.launching] using last
    · simp only [if_true,length_append,length_singleton,range_succ,map_append,map_singleton,← next]
      rw [← numbered.issued]
    · intro appId known
      rcases apply_registered known with old | ⟨_,same⟩
      · simp [numbered.registered appId old]
      · simp [same]

theorem numbered_next (numbered : daemon.Numbered) (happening : Happening) : (daemon.next happening).Numbered := by
  cases happening with
  | request host command => exact numbered_serve numbered
  | child code pid =>
    obtain ⟨more,handled⟩ := handler_effect
    rw [Daemon.next,handled]
    exact ⟨numbered.last,numbered.issued,numbered.registered⟩
  | removed appId =>
    rw [Daemon.next,Daemon.remove]
    split
    · exact ⟨numbered.last,numbered.issued,numbered.registered⟩
    · exact numbered

-- The ids are ints, and the one after the largest is the smallest.
theorem increasing_exact (numbered : daemon.Numbered) :
    daemon.issued.Pairwise (fun earlier later => earlier.toInt < later.toInt) ↔ daemon.issued.length < 2 ^ 31 := by
  constructor
  · intro increasing
    by_contra many
    rw [numbered.issued,pairwise_iff_getElem] at increasing
    have wrong := increasing 0 (2 ^ 31 - 1) (by simp; omega) (by simp; omega) (by omega)
    simp at wrong
  · intro few
    rw [numbered.issued,pairwise_map]
    refine List.Pairwise.imp_of_mem ?_ pairwise_lt_range
    intro one two inside inside' below
    have second : two < daemon.issued.length := mem_range.mp inside'
    rw [BitVec.toInt_eq_toNat_of_lt (by simp; omega),BitVec.toInt_eq_toNat_of_lt (by simp; omega)]
    simp
    omega

theorem next_unknown (numbered : daemon.Numbered) (few : daemon.issued.length < 2 ^ 31) :
    daemon.registry.idPidMap.find (daemon.registry.lastId + 1) = none := by
  by_contra known
  have registered := numbered.registered _ (Option.isSome_iff_ne_none.mpr known)
  rw [numbered.issued,numbered.last] at registered
  obtain ⟨n,inside,same⟩ := mem_map.mp registered
  have below := mem_range.mp inside
  have equal := congrArg BitVec.toNat same
  simp at equal
  omega

end Numbers

-- What is true of the tables and of the ids at any moment between two steps.
structure Daemon.Consistent (daemon : Daemon) : Prop where
  inverse : InverseOn (· ≠ 0) daemon.registry.pidIdMap daemon.registry.idPidMap
  increasing : daemon.issued.Pairwise (fun earlier later => earlier.toInt < later.toInt)
  registered : ∀ appId, daemon.registry.Registered appId → appId ∈ daemon.issued
  utils : ∀ appId, (daemon.registry.utilMap.find appId).isSome = true →
    daemon.registry.Registered appId ∨ appId ∈ daemon.removing
  cleanups : ∀ pid, (daemon.registry.appCleanupList.find pid).isSome = true →
    ∃ appId, daemon.registry.idPidMap.find appId = some pid

section Consistency
variable {daemon : Daemon}

theorem issued_grows : daemon.issued.length ≤ (daemon.next happening).issued.length := by
  cases happening with
  | request host command => simp [Daemon.next,Daemon.serve]
  | child code pid =>
    obtain ⟨more,handled⟩ := handler_effect
    rw [Daemon.next,handled]
  | removed appId =>
    rw [Daemon.next,Daemon.remove]
    split <;> rfl

theorem consistent_serve (consistent : daemon.registry.Consistent) (numbered : daemon.Numbered)
    (few : daemon.issued.length < 2 ^ 31) {host : Host} (sound : host.Sound)
    (nonNegative : ∀ appPid, command = .registerApp appPid → 0 ≤ appPid.toInt) : (daemon.serve host command).registry.Consistent := by
  obtain ⟨launching,served⟩ := serve_effect host command daemon
  rw [served]
  have applied := consistent_apply consistent (next_unknown numbered few) (effect_fits host)
    (effect_proper sound nonNegative)
  exact {applied with}

theorem consistent_next (consistent : daemon.registry.Consistent) (numbered : daemon.Numbered)
    (few : daemon.issued.length < 2 ^ 31) (proper : happening.Proper daemon) : (daemon.next happening).registry.Consistent := by
  cases happening with
  | request host command =>
    refine consistent_serve consistent numbered few proper.1 fun appPid same => ?_
    have nonNegative := proper.2
    rwa [same] at nonNegative
  | child code pid =>
    obtain ⟨more,handled⟩ := handler_effect
    rw [Daemon.next,handled]
    refine {consistent with cleanups := ?_}
    intro other listed
    refine consistent.cleanups other ?_
    split at listed
    · rw [find_erase] at listed
      split at listed
      · cases listed
      · exact listed
    · exact listed
  | removed appId =>
    rw [Daemon.next,Daemon.remove]
    split
    · refine {consistent with utils := ?_}
      intro other filed
      refine consistent.utils other ?_
      simp only [eraseUtils,find_erase] at filed
      split at filed
      · cases filed
      · exact filed
    · exact consistent

structure Daemon.Kept (daemon : Daemon) : Prop where
  numbered : daemon.Numbered
  tables : daemon.issued.length < 2 ^ 31 → daemon.registry.Consistent

theorem kept_next (kept : daemon.Kept) (proper : happening.Proper daemon) : (daemon.next happening).Kept := by
  refine ⟨numbered_next kept.numbered happening,fun few => ?_⟩
  have fewer := lt_of_le_of_lt issued_grows few
  exact consistent_next (kept.tables fewer) kept.numbered fewer proper

theorem registry_consistent {happenings : List Happening}
    (path : Reached (fun daemon happening => happening.Proper daemon) Daemon.next Daemon.start happenings daemon)
    (few : daemon.issued.length < 2 ^ 31) : daemon.Consistent := by
  have kept : daemon.Kept := reached_invariant ⟨numbered_start,fun _ => consistent_start⟩ (fun _ _ kept => kept_next kept) path
  have tables := kept.tables few
  exact ⟨tables.inverse,(increasing_exact kept.numbered).mpr few,kept.numbered.registered,
    fun appId filed => .inl (tables.utils appId filed),tables.cleanups⟩

theorem bareHost_sound : bareHost.Sound := by
  refine ⟨fun _ _ _ wrong => ?_,fun _ _ _ wrong => ?_⟩
  · cases wrong
  · cases wrong

theorem proper_bare (bare : ∀ happening ∈ happenings, ∀ host command,
    happening = .request host command → host = bareHost ∧ command.NonNegative) (daemon : Daemon) :
    AdmittedAlong (fun daemon happening => happening.Proper daemon) Daemon.next daemon happenings := by
  induction happenings generalizing daemon with
  | nil => trivial
  | cons happening rest ih =>
    refine ⟨?_,ih (fun other later => bare other (mem_cons_of_mem _ later)) _⟩
    cases happening with
    | request host command =>
      obtain ⟨same,nonNegative⟩ := bare _ mem_cons_self host command rfl
      exact ⟨same ▸ bareHost_sound,nonNegative⟩
    | _ => trivial

def bustle : List Happening :=
  [.request bareHost (.registerApp 7),.request bareHost (.registerUtil 1 9),.request bareHost (.registerApp 0),
    .child .exited 7,.request bareHost (.deregisterApp 1),.removed 1,.request bareHost (.registerApp 7)]

theorem registry_consistent_bustle : (bustle.foldl Daemon.next Daemon.start).Consistent ∧
    (bustle.foldl Daemon.next Daemon.start).issued = [1,2,3] := by
  refine ⟨registry_consistent (reached_run (proper_bare ?_ _)) (by decide),by decide⟩
  simp [bustle,Command.NonNegative]

theorem registered_often (n : Nat) : ∃ happenings daemon,
    Reached (fun daemon happening => happening.Proper daemon) Daemon.next Daemon.start happenings daemon ∧ daemon.issued.length = n := by
  induction n with
  | zero => exact ⟨[],Daemon.start,.start,rfl⟩
  | succ n ih =>
    obtain ⟨happenings,daemon,path,length⟩ := ih
    have proper : (Happening.request bareHost (.registerApp 0)).Proper daemon := ⟨bareHost_sound,by simp [Command.NonNegative]⟩
    refine ⟨_,_,.step path proper,?_⟩
    obtain ⟨launching,served⟩ := serve_effect bareHost (.registerApp 0) daemon
    have registers : (Command.registerApp 0).effect bareHost daemon.registry = .registers 0 := by
      change daemon.registry.registering 0 = _
      exact if_pos (Or.inl rfl)
    rw [Daemon.next,served,registers]
    simp [Effect.issues,length]

theorem ids_run_out : ∃ happenings daemon,
    Reached (fun daemon happening => happening.Proper daemon) Daemon.next Daemon.start happenings daemon ∧ ¬ daemon.Consistent := by
  obtain ⟨happenings,daemon,path,length⟩ := registered_often (2 ^ 31)
  refine ⟨happenings,daemon,path,fun consistent => ?_⟩
  have numbered : daemon.Numbered := reached_invariant numbered_start (fun _ happening kept _ => numbered_next kept happening) path
  have few := (increasing_exact numbered).mp consistent.increasing
  omega

end Consistency

end CommonTools.FeDaemon
