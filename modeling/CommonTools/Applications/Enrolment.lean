import CommonTools.Applications.Conduct

namespace CommonTools.FeDaemon
open OrderedMaps Programs MPIRRequest

section Quiet
variable {host : Host} {command : Command}

theorem quiet_effect (quiet : command.quiet = true) :
    ((command.effect host registry).apply registry).idPidMap = registry.idPidMap ∧ (command.effect host registry).issues = false := by
  let P : Effect → Prop := fun effect => (effect.apply registry).idPidMap = registry.idPidMap ∧ effect.issues = false
  have idle : P .idle := ⟨rfl,rfl⟩
  have tracks : ∀ appId utilPid signum, P (registry.tracking appId utilPid signum) := fun _ _ _ => tracking_elim idle fun _ _ => ⟨rfl,rfl⟩
  have drops : ∀ mpirId done, P (registry.dropping mpirId done) := fun _ _ => dropping_elim idle fun _ => ⟨rfl,rfl⟩
  cases command with
  | forkExecvpUtil appId runMode data => exact found_elim idle fun utilPid _ => tracks appId utilPid SIGTERM
  | readStringMPIR mpirId name => exact idle
  | releaseMPIR mpirId | waitMPIR mpirId | terminateMPIR mpirId => exact drops mpirId _
  | registerUtil appId utilPid => exact tracks appId utilPid SIGTERM
  | registerUtilWithSigkill appId utilPid => exact tracks appId utilPid SIGKILL
  | checkApp appId | shutdown => exact idle
  | _ => cases quiet

theorem serve_quiet (quiet : command.quiet = true) {daemon : Daemon} :
    (daemon.serve host command).registry.idPidMap = daemon.registry.idPidMap ∧ (daemon.serve host command).issued = daemon.issued := by
  obtain ⟨launching,served⟩ := serve_effect host command daemon
  obtain ⟨same,none⟩ := quiet_effect quiet
  rw [served]
  refine ⟨same,?_⟩
  rw [none]
  simp

end Quiet

-- Launchers show a table of processes, and texts that are numbers.
structure Host.Obliging (host : Host) : Prop where
  table : ∀ instance', ∃ proctable, host.getProctable instance' = .ok proctable ∧ proctable ≠ [] ∧ ∀ elem ∈ proctable, 0 ≤ elem.pid.toInt
  texts : ∀ instance' name, ∃ text value, host.readStringAt instance' name = .ok text ∧ Numerals.stoi text.1 = .ok value

section Launching
variable {host : Host} {registry : Registry}

theorem extract_kept (obliging : host.Obliging) (failed : extractMPIRResult host instance' registry = .error message registry') :
    registry' = registry := by
  by_cases free : registry.Free instance'.launcherPid
  · obtain ⟨proctable,read,_⟩ := obliging.table instance'
    obtain ⟨result,after,done⟩ := extract_read host free read
    rw [done] at failed
    cases failed
  · obtain ⟨_,refused⟩ := extract_taken host free
    rw [refused] at failed
    cases failed
    rfl

theorem extract_table (done : extractMPIRResult host instance' registry = .ok result registry') :
    host.getProctable instance' = .ok result.proctable ∧ (registry'.mpirMap.find result.mpirId).isSome = true := by
  obtain ⟨mpirId,one,registered,rest⟩ := bind_ok.mp done
  obtain ⟨proctable,two,read,last⟩ := bind_ok.mp rest
  obtain ⟨table,rfl⟩ := attempt_ok.mp read
  cases last
  refine ⟨table,?_⟩
  change ((two.emplaceMPIR mpirId instance').mpirMap.find mpirId).isSome = true
  unfold Registry.emplaceMPIR
  cases found : two.mpirMap.find mpirId with
  | some other => simp [found]
  | none => simp

theorem perform_kept (obliging : host.Obliging) (request : MPIRRequest)
    (failed : request.perform host registry = .error message registry') : registry'.lastId = registry.lastId := by
  rw [perform_parts] at failed
  rcases bind_error.mp failed with early | ⟨instance',middle,obtained,late⟩
  · rw [silent_error (obtain_silent host) early]
  · have same := silent_ok (obtain_silent host) obtained
    subst same
    cases request with
    | attachMPIR launcherName launcherPid => rw [extract_kept obliging late]
    | launchMPIRShim shim data =>
      rcases bind_error.mp late with extracted | ⟨_,_,_,wrong⟩
      · rw [extract_kept obliging extracted]
      · cases wrong
    | launchMPIR data =>
      rcases bind_error.mp late with wrong | ⟨_,_,noted,rest⟩
      · cases wrong
      · cases noted
        rcases bind_error.mp rest with stopped | ⟨_,_,reached,rest⟩
        · rw [silent_error attempt_silent stopped]
        · have same := silent_ok attempt_silent reached
          subst same
          rcases bind_error.mp rest with extracted | ⟨_,_,_,wrong⟩
          · rw [extract_kept obliging extracted]
          · cases wrong

theorem perform_table {request : MPIRRequest} (done : request.perform host registry = .ok result registry') :
    (∃ instance', host.getProctable instance' = .ok result.proctable) ∧ (registry'.mpirMap.find result.mpirId).isSome = true := by
  rw [perform_parts] at done
  obtain ⟨instance',middle,_,adopted⟩ := bind_ok.mp done
  cases request with
  | attachMPIR launcherName launcherPid => exact ⟨⟨_,(extract_table adopted).1⟩,(extract_table adopted).2⟩
  | launchMPIRShim shim data =>
    obtain ⟨mpirResult,_,extracted,last⟩ := bind_ok.mp adopted
    have table := extract_table extracted
    cases last
    exact ⟨⟨_,table.1⟩,table.2⟩
  | launchMPIR data =>
    obtain ⟨_,_,noted,stopped⟩ := bind_ok.mp adopted
    obtain ⟨_,_,_,running⟩ := bind_ok.mp stopped
    obtain ⟨mpirResult,_,extracted,last⟩ := bind_ok.mp running
    have table := extract_table extracted
    cases last
    exact ⟨⟨_,table.1⟩,table.2⟩

theorem added_registered : (registry.added appPid).Registered appId ↔ registry.Registered appId ∨ appId = registry.lastId + 1 := by
  by_cases same : appId = registry.lastId + 1
  · simp [Registry.Registered,Registry.added,same]
  · simp only [Registry.Registered,Registry.added,OrderedMap.find_insert,if_neg same,or_iff_left same]

theorem issues_registered {effect : Effect} (issues : effect.issues = true) :
    (effect.apply registry).Registered appId ↔ registry.Registered appId ∨ appId = registry.lastId + 1 := by
  cases effect with
  | registers appPid => exact added_registered
  | adopts instance' cleanUp =>
    have adopted : (registry.adopt instance').Registered appId ↔ registry.Registered appId ∨ appId = registry.lastId + 1 := by
      obtain ⟨mpirMap,same⟩ := Registry.adopt_eq registry instance'
      rw [same]
      exact added_registered
    cases cleanUp <;> exact adopted
  | _ => cases issues

theorem perform_idle {request : MPIRRequest} (none : (request.effect host registry).issues = false) :
    request.effect host registry = .idle := by
  revert none
  refine perform_elim (P := fun effect => effect.issues = false → effect = .idle) host (fun _ => rfl) (fun _ _ _ wrong => ?_)
    fun _ _ _ wrong => ?_
  · cases wrong
  · cases wrong

theorem perform_serve {request : MPIRRequest} {daemon : Daemon} :
    (daemon.serve host request.command).registry = after (request.perform host daemon.registry) := by
  cases request <;> rfl

theorem launched_registered {request : MPIRRequest} {daemon : Daemon} (done : request.perform host daemon.registry = .ok result registry')
    : (daemon.serve host request.command).registry.Registered appId ↔ daemon.registry.Registered appId ∨ appId = result.mpirId := by
  obtain ⟨same,newest⟩ := perform_numbered host request done
  obtain ⟨launching,applied⟩ := after_perform host request daemon.registry
  rw [perform_serve,applied,same]
  refine issues_registered ?_
  have last := apply_lastId (request.effect host daemon.registry) daemon.registry
  rw [done] at applied
  have equal := congrArg Registry.lastId applied
  change registry'.lastId = ((request.effect host daemon.registry).apply daemon.registry).lastId at equal
  cases issues : (request.effect host daemon.registry).issues with
  | true => rfl
  | false =>
    rw [issues] at last
    rw [last,newest] at equal
    simp at equal

theorem unlaunched_registered (obliging : host.Obliging) {request : MPIRRequest} {daemon : Daemon}
    (failed : request.perform host daemon.registry = .error message registry') :
    (daemon.serve host request.command).registry.Registered appId ↔ daemon.registry.Registered appId := by
  obtain ⟨launching,applied⟩ := after_perform host request daemon.registry
  have kept := perform_kept obliging request failed
  have idle : request.effect host daemon.registry = .idle := by
    refine perform_idle ?_
    have last := apply_lastId (request.effect host daemon.registry) daemon.registry
    rw [failed] at applied
    have equal := congrArg Registry.lastId applied
    change registry'.lastId = ((request.effect host daemon.registry).apply daemon.registry).lastId at equal
    cases issues : (request.effect host daemon.registry).issues with
    | false => rfl
    | true =>
      rw [issues] at last
      rw [last,kept] at equal
      simp at equal
  rw [perform_serve,applied,idle]
  rfl

end Launching

end CommonTools.FeDaemon

namespace CommonTools.Applications
open FeDaemon OrderedMaps Programs Credentials Frontend
open Interface (Handle Handles FrontendClass)

def Application.here (app : Application) : Option Id :=
  match app.kind with
  | .Localhost => none
  | _ => some app.daemonAppId

def Frontend.Owns (frontend : Frontend) (id : Id) : Prop := ∃ key app, frontend.apps.find key = some app ∧ id ∈ app.here

-- What is registered belongs to an object, or to one that is being made or unmade.
structure Frontend.Tally (frontend : Frontend) (making : Option Nat) (held : Option Id) : Prop where
  numbered : (frontend.daemons .here).Numbered
  tables : frontend.registry.Consistent
  registered : ∀ id, frontend.registry.Registered id ↔ frontend.Owns id ∨ id ∈ held
  unowned : ∀ id ∈ held, ¬ frontend.Owns id
  single : ∀ key other app object id, frontend.apps.find key = some app → frontend.apps.find other = some object → id ∈ app.here →
    id ∈ object.here → key = other
  made : ∀ key, (frontend.apps.find key).isSome = true → key < frontend.made
  fresh : ∀ key ∈ making, key < frontend.made ∧ frontend.apps.find key = none

def Tallied (making : Option Nat) (held : Option Id) (frontend : Frontend) : Prop := frontend.Few → frontend.Tally making held

section Tallies
variable {frontend frontend' : Frontend} {making : Option Nat} {held : Option Id} {host : Host} {app : Option Nat} {command : Command}

theorem tally_frame (tally : frontend.Tally making held) (numbered : (frontend'.daemons .here).Numbered)
    (tables : frontend'.registry.Consistent) (ids : ∀ id, frontend'.registry.Registered id ↔ frontend.registry.Registered id)
    (apps : frontend'.apps = frontend.apps) (made : frontend'.made = frontend.made) : frontend'.Tally making held := by
  refine ⟨numbered,tables,?_,?_,?_,?_,?_⟩
  · intro id
    rw [ids,tally.registered,Frontend.Owns,Frontend.Owns,apps]
  · intro id mine owned
    rw [Frontend.Owns,apps] at owned
    exact tally.unowned id mine owned
  · rw [apps]; exact tally.single
  · rw [apps,made]; exact tally.made
  · rw [apps,made]; exact tally.fresh

theorem tally_quiet (tallied : Tallied making held frontend) (sound : host.Sound) (quiet : command.quiet = true) (endpoint : Endpoint) :
    Tallied making held (frontend.served host app endpoint command) := by
  intro few'
  have few := few_served endpoint few'
  have tally := tallied few
  have other : ∀ appPid, command = .registerApp appPid → 0 ≤ appPid.toInt := by
    intro appPid same
    rw [same] at quiet
    cases quiet
  obtain ⟨numbered,tables⟩ := tables_served tally.numbered tally.tables few sound other
  refine tally_frame tally numbered tables (fun id => ?_) rfl rfl
  cases endpoint with
  | here => rw [registry,served_here,Registry.Registered,(serve_quiet quiet).1]; rfl
  | there remote => rw [registry,served_there]; rfl

theorem tally_there (tallied : Tallied making held frontend) : Tallied making held (frontend.served host app (.there remote) command) := by
  intro few'
  have few := few_served (.there remote) few'
  have tally := tallied few
  refine tally_frame tally ?_ ?_ (fun id => ?_) rfl rfl
  · rw [served_there]; exact tally.numbered
  · rw [registry]; exact tally.tables
  · rw [registry]; rfl

theorem tally_acquired (tallied : Tallied making none frontend) (sound : host.Sound) {id : Id}
    (nonNegative : ∀ appPid, command = .registerApp appPid → 0 ≤ appPid.toInt) (next : id = frontend.registry.lastId + 1)
    (ids : ∀ other, (frontend.served host app .here command).registry.Registered other ↔ frontend.registry.Registered other ∨ other = id) :
    Tallied making (some id) (frontend.served host app .here command) := by
  intro few'
  have few := few_served .here few'
  have tally := tallied few
  obtain ⟨numbered,tables⟩ := tables_served tally.numbered tally.tables few sound nonNegative
  have unknown : ¬ frontend.registry.Registered id := by
    rw [next,Registry.Registered,registry,next_unknown tally.numbered few]
    simp
  refine ⟨numbered,tables,fun other => ?_,?_,tally.single,tally.made,tally.fresh⟩
  · rw [ids,tally.registered]
    simp [Frontend.Owns,served,advance,eq_comm]
  · intro other same owned
    cases same
    exact unknown ((tally.registered id).mpr (.inl owned))

theorem tally_deregister {id : Id} (tallied : Tallied making (some id) frontend) (sound : host.Sound) :
    Tallied making none (frontend.served host app .here (.deregisterApp id)) := by
  intro few'
  have few := few_served .here few'
  have tally := tallied few
  have other : ∀ appPid, Command.deregisterApp id = .registerApp appPid → 0 ≤ appPid.toInt := by simp
  obtain ⟨numbered,tables⟩ := tables_served tally.numbered tally.tables few sound other
  have known : frontend.registry.Registered id := (tally.registered id).mpr (.inr rfl)
  have ids : ∀ other, (frontend.served host app .here (.deregisterApp id)).registry.Registered other ↔
      frontend.registry.Registered other ∧ other ≠ id := by
    intro other
    obtain ⟨appPid,found⟩ := Option.isSome_iff_exists.mp known
    obtain ⟨launching,served⟩ := serve_effect host (.deregisterApp id) (frontend.daemons .here)
    have effect : Command.effect host frontend.registry (.deregisterApp id) = .deregisters id appPid := by simp [Command.effect,found]
    rw [registry,served_here,served]
    change (((Command.effect host frontend.registry (.deregisterApp id)).apply frontend.registry).launching launching).Registered other ↔ _
    rw [effect]
    change (((frontend.registry.deregister id appPid).idPidMap.find other).isSome = true) ↔ _
    rw [(Registry.erased_deregister frontend.registry id appPid).ids,OrderedMap.find_erase]
    by_cases same : other = id
    · simp [same]
    · simp [same,Registry.Registered]
  refine ⟨numbered,tables,fun other => ?_,by simp,tally.single,tally.made,tally.fresh⟩
  rw [ids,tally.registered]
  have unowned := tally.unowned id rfl
  constructor
  · rintro ⟨owned | same,apart⟩
    · exact .inl owned
    · cases same; exact absurd rfl apart
  · rintro (owned | wrong)
    · exact ⟨.inl owned,fun same => unowned (same ▸ owned)⟩
    · cases wrong

theorem tally_withApp {app : Application} (tallied : Tallied (some key) app.here frontend) :
    Tallied none none (frontend.withApp key app) := by
  intro few
  have tally := tallied few
  obtain ⟨made,absent⟩ := tally.fresh key rfl
  have found : ∀ other object, (frontend.withApp key app).apps.find other = some object ↔
      other = key ∧ object = app ∨ frontend.apps.find other = some object := by
    intro other object
    by_cases same : other = key
    · simp [withApp,same,absent,eq_comm]
    · simp [withApp,same]
  have owns : ∀ id, (frontend.withApp key app).Owns id ↔ frontend.Owns id ∨ id ∈ app.here := by
    intro id
    constructor
    · rintro ⟨other,object,there,mine⟩
      rcases (found other object).mp there with ⟨_,rfl⟩ | old
      · exact .inr mine
      · exact .inl ⟨other,object,old,mine⟩
    · rintro (⟨other,object,there,mine⟩ | mine)
      · exact ⟨other,object,(found other object).mpr (.inr there),mine⟩
      · exact ⟨key,app,(found key app).mpr (.inl ⟨rfl,rfl⟩),mine⟩
  refine ⟨tally.numbered,tally.tables,?_,by simp,?_,?_,by simp⟩
  · intro id
    rw [owns]
    exact (tally.registered id).trans (by simp)
  · intro one other app' object id first second mine theirs
    rcases (found one app').mp first with ⟨rfl,rfl⟩ | old <;> rcases (found other object).mp second with ⟨rfl,rfl⟩ | old'
    · rfl
    · exact absurd ⟨other,object,old',theirs⟩ (tally.unowned id mine)
    · exact absurd ⟨one,app',old,mine⟩ (tally.unowned id theirs)
    · exact tally.single one other app' object id old old' mine theirs
  · intro other present
    obtain ⟨object,there⟩ := Option.isSome_iff_exists.mp present
    rcases (found other object).mp there with ⟨rfl,_⟩ | old
    · exact made
    · exact tally.made other (Option.isSome_iff_exists.mpr ⟨object,old⟩)

theorem tally_withoutApp {app : Application} (tallied : Tallied none none frontend) (present : frontend.apps.find key = some app) :
    Tallied none app.here (frontend.withoutApp key) := by
  intro few
  have tally : frontend.Tally none none := tallied few
  have found : ∀ other object, (frontend.withoutApp key).apps.find other = some object ↔
      other ≠ key ∧ frontend.apps.find other = some object := by
    intro other object
    by_cases same : other = key
    · simp [withoutApp,same]
    · simp [withoutApp,same]
  have unowned : ∀ id ∈ app.here, ¬ (frontend.withoutApp key).Owns id := by
    rintro id mine ⟨other,object,there,theirs⟩
    obtain ⟨apart,old⟩ := (found other object).mp there
    exact apart (tally.single other key object app id old present theirs mine)
  refine ⟨tally.numbered,tally.tables,?_,unowned,?_,?_,by simp⟩
  · intro id
    change frontend.registry.Registered id ↔ _
    rw [tally.registered]
    constructor
    · rintro (⟨other,object,there,mine⟩ | wrong)
      · by_cases same : other = key
        · subst same
          rw [present] at there
          cases there
          exact .inr mine
        · exact .inl ⟨other,object,(found other object).mpr ⟨same,there⟩,mine⟩
      · cases wrong
    · rintro (⟨other,object,there,mine⟩ | mine)
      · exact .inl ⟨other,object,((found other object).mp there).2,mine⟩
      · exact .inl ⟨key,app,present,mine⟩
  · intro one other app' object id first second
    exact tally.single one other app' object id ((found one app').mp first).2 ((found other object).mp second).2
  · intro other there
    obtain ⟨object,here⟩ := Option.isSome_iff_exists.mp there
    exact tally.made other (Option.isSome_iff_exists.mpr ⟨object,((found other object).mp here).2⟩)

theorem tally_revise (tallied : Tallied making held frontend)
    (same : ∀ app, (update app).here = app.here) : Tallied making held (frontend.revise key update) := by
  intro few
  have tally : frontend.Tally making held := tallied few
  have backward : ∀ other object, (frontend.revise key update).apps.find other = some object →
      ∃ before, frontend.apps.find other = some before ∧ object.here = before.here := by
    intro other object found
    obtain ⟨before,there,rfl | rfl⟩ := revise_found found
    · exact ⟨object,there,rfl⟩
    · exact ⟨before,there,same before⟩
  have forward : ∀ other object, frontend.apps.find other = some object →
      ∃ after, (frontend.revise key update).apps.find other = some after ∧ after.here = object.here := by
    intro other object found
    unfold revise
    cases old : frontend.apps.find key with
    | none => exact ⟨object,found,rfl⟩
    | some before =>
      by_cases equal : other = key
      · subst equal
        cases found.symm.trans old
        exact ⟨update object,by simp,same object⟩
      · exact ⟨object,by simp [equal,found],rfl⟩
  have owns : ∀ id, (frontend.revise key update).Owns id ↔ frontend.Owns id := by
    intro id
    constructor
    · rintro ⟨other,object,found,mine⟩
      obtain ⟨before,there,equal⟩ := backward other object found
      exact ⟨other,before,there,equal ▸ mine⟩
    · rintro ⟨other,object,found,mine⟩
      obtain ⟨after,there,equal⟩ := forward other object found
      exact ⟨other,after,there,equal ▸ mine⟩
  refine ⟨tally.numbered,tally.tables,fun id => ?_,fun id mine owned => ?_,?_,?_,?_⟩
  · rw [owns]; exact tally.registered id
  · exact tally.unowned id mine ((owns id).mp owned)
  · intro one other app object id first second mine theirs
    obtain ⟨app',there,equal⟩ := backward one app first
    obtain ⟨object',there',equal'⟩ := backward other object second
    exact tally.single one other app' object' id there there' (equal ▸ mine) (equal' ▸ theirs)
  · intro other present
    obtain ⟨object,here⟩ := Option.isSome_iff_exists.mp present
    obtain ⟨before,there,_⟩ := backward other object here
    exact tally.made other (Option.isSome_iff_exists.mpr ⟨before,there⟩)
  · intro other wanted
    obtain ⟨below,absent⟩ := tally.fresh other wanted
    refine ⟨below,Option.eq_none_iff_forall_ne_some.mpr fun object found => ?_⟩
    obtain ⟨before,there,_⟩ := backward other object found
    rw [absent] at there
    cases there

theorem tally_same (tallied : Tallied making held frontend) (daemon : frontend'.daemons .here = frontend.daemons .here)
    (apps : frontend'.apps = frontend.apps) (made : frontend'.made = frontend.made) : Tallied making held frontend' := by
  intro few'
  have few : frontend.Few := by rwa [Frontend.Few,daemon] at few'
  have tally := tallied few
  refine tally_frame tally ?_ ?_ (fun id => ?_) apps made
  · rw [daemon]; exact tally.numbered
  · rw [registry,daemon]; exact tally.tables
  · rw [registry,daemon]; rfl

theorem tally_begin (tallied : Tallied none none frontend) : Tallied (some frontend.made) none {frontend with made := frontend.made + 1} := by
  intro few
  have tally : frontend.Tally none none := tallied few
  refine ⟨tally.numbered,tally.tables,tally.registered,tally.unowned,tally.single,?_,?_⟩
  · intro key present
    exact Nat.lt_succ_of_lt (tally.made key present)
  · intro key same
    cases same
    refine ⟨Nat.lt_succ_self _,?_⟩
    by_contra present
    exact Nat.lt_irrefl _ (tally.made _ (Option.isSome_iff_ne_none.mpr present))

theorem tally_unmade (tallied : Tallied making held frontend) : Tallied none held frontend := by
  intro few
  have tally := tallied few
  exact {tally with fresh := fun _ wrong => by cases wrong}

theorem tally_advance (tallied : Tallied making held frontend) (happening : Happening) (proper : ∀ daemon, happening.Proper daemon)
    (ids : ∀ daemon : Daemon, (daemon.next happening).registry.idPidMap = daemon.registry.idPidMap) (endpoint : Endpoint) :
    Tallied making held (frontend.advance endpoint happening) := by
  intro few'
  have few := few_advance few'
  have tally := tallied few
  cases endpoint with
  | here =>
    refine tally_frame tally ?_ ?_ (fun id => ?_) rfl rfl
    · rw [advance_here]; exact numbered_next tally.numbered happening
    · rw [registry]; exact consistent_next tally.tables tally.numbered few (proper _)
    · rw [registry,advance_here,Registry.Registered,ids]; rfl
  | there remote =>
    refine tally_frame tally ?_ ?_ (fun id => ?_) rfl rfl
    · rw [advance_there]; exact tally.numbered
    · rw [registry]; exact tally.tables
    · rw [registry]; rfl

theorem tally_positive {id : Id} (tally : frontend.Tally making (some id)) (few : frontend.Few) : 0 < id.toInt := by
  have known := tally.numbered.registered id ((tally.registered id).mpr (.inr rfl))
  rw [tally.numbered.issued] at known
  obtain ⟨n,inside,same⟩ := List.mem_map.mp known
  have below := List.mem_range.mp inside
  have small := few
  unfold Frontend.Few at small
  rw [← same,BitVec.toInt_eq_toNat_of_lt]
  · simp only [BitVec.toNat_ofNat]; omega
  · simp only [BitVec.toNat_ofNat]; omega

end Tallies

end CommonTools.Applications
