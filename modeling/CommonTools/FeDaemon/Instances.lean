import CommonTools.FeDaemon.Runs

namespace CommonTools.FeDaemon
open OrderedMaps Programs Registry

def Registry.Holds (registry : Registry) (mpirId : Id) : Prop := (registry.mpirMap.find mpirId).isSome = true

instance (registry : Registry) (mpirId : Id) : Decidable (registry.Holds mpirId) := inferInstanceAs (Decidable (_ = true))

def Registry.InstancesRegistered (registry : Registry) : Prop := ∀ mpirId, registry.Holds mpirId → registry.Registered mpirId

-- A request that names an instance calls into it once. This is the id it was
-- found under, and the globals at the moment of the call.
structure Use where
  mpirId : Id
  registry : Registry
  deriving DecidableEq

def Use.Live (use : Use) : Prop := use.registry.Holds use.mpirId

def Command.use (registry : Registry) : Command → Option Use
  | .waitMPIR mpirId => (registry.mpirMap.find mpirId).map fun _ => ⟨mpirId,registry.eraseMPIR mpirId⟩
  | .readStringMPIR mpirId _ => (registry.mpirMap.find mpirId).map fun _ => ⟨mpirId,registry⟩
  | .terminateMPIR mpirId => (registry.mpirMap.find mpirId).map fun _ => ⟨mpirId,registry⟩
  | _ => none

theorem use_found {command : Command} (used : command.use registry = some use) :
    ∃ instance', registry.mpirMap.find use.mpirId = some instance' := by
  cases command with
  | waitMPIR mpirId | readStringMPIR mpirId name => obtain ⟨instance',found,rfl⟩ := Option.map_eq_some_iff.mp used; exact ⟨instance',found⟩
  | terminateMPIR mpirId => obtain ⟨instance',found,rfl⟩ := Option.map_eq_some_iff.mp used; exact ⟨instance',found⟩
  | _ => cases used

def Command.givesUp : Command → Option Id
  | .deregisterApp appId => some appId
  | .releaseApp appId => some appId
  | _ => none

-- These do not look after an instance that the id they are about may have.
def Command.neglects : Command → Option Id
  | .waitMPIR mpirId => some mpirId
  | command => command.givesUp

def Happening.Careful (daemon : Daemon) : Happening → Prop
  | .request _ command => ∀ appId, command.neglects = some appId → ¬ daemon.registry.Holds appId
  | _ => True

def Happening.Respects (daemon : Daemon) : Happening → Prop
  | .request host command =>
    (∀ appId, command.givesUp = some appId → ¬ (daemon.serve host command).registry.Holds appId) ∧
      ∀ use, command.use daemon.registry = some use → use.Live
  | _ => True

def Effect.leaving : Effect → Option Id
  | .deregisters appId _ => some appId
  | .releases appId _ => some appId
  | _ => none

section Keeping
variable {registry : Registry} {daemon : Daemon}

theorem holds_adopt (held : (registry.adopt instance').Holds mpirId) : registry.Holds mpirId ∨ mpirId = registry.lastId + 1 := by
  unfold adopt emplaceMPIR at held
  split at held
  · exact .inl held
  · simp only [Registry.Holds,OrderedMap.find_insert] at held
    split at held
    · rename_i same; exact .inr same
    · exact .inl held

theorem instances_adopt (kept : registry.InstancesRegistered) : (registry.adopt instance').InstancesRegistered := by
  intro mpirId held
  rw [adopt,Registry.Registered,emplaceMPIR_idPidMap]
  rcases holds_adopt held with old | same
  · exact registered_added (kept mpirId old)
  · simp [same,added]

theorem instances_erased {registry' : Registry} (kept : registry.InstancesRegistered) (none' : ¬ registry.Holds appId)
    (sameIds : registry'.idPidMap = registry.idPidMap.erase appId) (sameInstances : registry'.mpirMap = registry.mpirMap) :
    registry'.InstancesRegistered := by
  intro mpirId held
  have before : registry.Holds mpirId := by rwa [Registry.Holds,sameInstances] at held
  have other : mpirId ≠ appId := by intro same; exact none' (same ▸ before)
  have known := kept mpirId before
  simpa [Registry.Registered,sameIds,other] using known

theorem instances_apply (kept : registry.InstancesRegistered) {effect : Effect}
    (careful : ∀ appId, effect.leaving = some appId → ¬ registry.Holds appId) : (effect.apply registry).InstancesRegistered := by
  cases effect with
  | registers appPid => exact fun mpirId held => registered_added (kept mpirId held)
  | adopts instance' cleanUp => cases cleanUp <;> exact instances_adopt kept
  | deregisters appId appPid =>
    rw [Effect.apply,deregister,terminateApp_eq]
    exact instances_erased kept (careful appId rfl) rfl rfl
  | releases appId appPid => exact instances_erased kept (careful appId rfl) rfl rfl
  | drops mpirId =>
    intro other held
    simp only [Effect.apply,eraseMPIR,Registry.Holds,OrderedMap.find_erase] at held
    split at held
    · cases held
    · exact kept other held
  | _ => exact kept

theorem effect_leaving {command : Command} (leaves : (command.effect host registry).leaving = some appId) :
    command.givesUp = some appId := by
  have caused := effect_causes host command registry
  cases effect : command.effect host registry with
  | deregisters other appPid | releases other appPid => rw [effect] at caused leaves; cases leaves; rw [caused.1]; rfl
  | _ => rw [effect] at leaves; cases leaves

theorem neglects_iff {command : Command} : command.neglects = some appId ↔ command = .waitMPIR appId ∨ command.givesUp = some appId := by
  cases command <;> simp [Command.neglects,Command.givesUp]

theorem instances_next (kept : daemon.registry.InstancesRegistered) (careful : happening.Careful daemon) :
    (daemon.next happening).registry.InstancesRegistered := by
  cases happening with
  | request host command =>
    obtain ⟨launching,served⟩ := serve_effect host command daemon
    rw [Daemon.next,served]
    exact instances_apply kept fun appId leaves =>
      careful appId (neglects_iff.mpr (.inr (effect_leaving leaves)))
  | child code pid =>
    obtain ⟨more,handled⟩ := handler_effect
    rw [Daemon.next,handled]
    exact kept
  | removed appId =>
    rw [Daemon.next,Daemon.remove]
    split <;> exact kept

theorem givesUp_holds (givenUp : command.givesUp = some appId) :
    (daemon.serve host command).registry.Holds appId ↔ daemon.registry.Holds appId := by
  obtain ⟨launching,served⟩ := serve_effect host command daemon
  rw [served]
  cases command with
  | deregisterApp other =>
    change Registry.Holds (Effect.apply daemon.registry ((daemon.registry.idPidMap.find other).elim .idle _)) appId ↔ _
    cases daemon.registry.idPidMap.find other with
    | none => rfl
    | some appPid => rw [Option.elim_some,Effect.apply,deregister,terminateApp_eq]; rfl
  | releaseApp other =>
    change Registry.Holds (Effect.apply daemon.registry ((daemon.registry.idPidMap.find other).elim .idle _)) appId ↔ _
    cases daemon.registry.idPidMap.find other <;> rfl
  | _ => cases givenUp

theorem use_live {command : Command} (used : command.use registry = some use) : use.Live ↔ ∀ mpirId, command ≠ .waitMPIR mpirId := by
  obtain ⟨instance',found⟩ := use_found used
  cases command with
  | waitMPIR mpirId =>
    obtain ⟨_,_,rfl⟩ := Option.map_eq_some_iff.mp used
    refine iff_of_false ?_ fun never => never mpirId rfl
    simp [Use.Live,Registry.Holds,eraseMPIR]
  | readStringMPIR mpirId name | terminateMPIR mpirId =>
    obtain ⟨_,_,rfl⟩ := Option.map_eq_some_iff.mp used
    refine iff_of_true ?_ fun _ => by simp
    simpa [Use.Live,Registry.Holds] using Option.isSome_of_eq_some found
  | _ => cases used

theorem respects_exact {happening : Happening} {daemon : Daemon} : happening.Respects daemon ↔ happening.Careful daemon := by
  cases happening with
  | request host command =>
    constructor
    · intro ⟨givingUp,calls⟩ appId neglected held
      rcases neglects_iff.mp neglected with same | givenUp
      · subst same
        obtain ⟨instance',found⟩ := Option.isSome_iff_exists.mp held
        have used : (Command.waitMPIR appId).use daemon.registry = some ⟨appId,daemon.registry.eraseMPIR appId⟩ := by
          simp [Command.use,found]
        exact (use_live used).mp (calls _ used) appId rfl
      · exact givingUp appId givenUp ((givesUp_holds givenUp).mpr held)
    · intro careful
      refine ⟨fun appId givenUp held => ?_,fun use used => (use_live used).mpr fun mpirId same => ?_⟩
      · exact careful appId (neglects_iff.mpr (.inr givenUp)) ((givesUp_holds givenUp).mp held)
      · subst same
        obtain ⟨instance',found⟩ := use_found used
        obtain ⟨_,_,rfl⟩ := Option.map_eq_some_iff.mp used
        exact careful mpirId rfl (Option.isSome_of_eq_some found)
  | _ => exact Iff.rfl

end Keeping

def eagerHost : Host :=
  {bareHost with
    findPath := some
    attach := fun _ launcherPid => .ok ⟨launcherPid⟩
    getProctable := fun _ => .ok []}

def attached : Daemon := Daemon.start.next (.request eagerHost (.attachMPIR [] 7))

end CommonTools.FeDaemon
