import CommonTools.FeDaemon.Conversation
import CommonTools.FeDaemon.Readable
import CommonTools.FeDaemon.Registry

namespace CommonTools.FeDaemon
open Numerals Programs Streams

section Exchange
variable (host : Host) (registry : Registry)

-- The operations of a daemon in a given state. What what() returns is a C string.
def operations : Operations := fun type command =>
  match operate host type command registry with
  | .ok answer _ => .ok answer
  | .error what _ => .error (cstr what)

def Registry.afterwards (type : ReqType) : Option Command → Registry
  | none => registry
  | some command => after (operate host type command registry)

structure Exchanged where
  failed : Bool
  result : Except Failure Returned
  registry : Registry

def exchange (request : Request) (pad : Padding) (daemonReads clientReads : Cutting) : Except Failure Exchanged :=
  let round : Round := ⟨request,operations host registry,pad,daemonReads,clientReads⟩
  (round.serve request.cells).1.map fun served =>
    ⟨served.failed,(round.receive served.response).1,registry.afterwards host request.type served.command⟩

end Exchange

def Refused : Except Failure Returned → Prop
  | .error _ => True
  | .ok (.flag success) => success = false
  | .ok _ => False

def Names (id : Id) : Except Failure Returned → Prop
  | .ok (.id appId) => appId = id
  | .ok (.mpir result) => result.mpirId = id
  | _ => False

structure Exchanged.FailureVisible (exchanged : Exchanged) : Prop where
  refused : exchanged.failed = true → Refused exchanged.result
  registered : ∀ id, Names id exchanged.result → exchanged.registry.Registered id

def Answerable (host : Host) (registry : Registry) : Request → Prop
  | .forkExecvpApp launch => launch.Readable ∧ (host.findPath launch.file.1).isSome = true ∧
    (∀ entry ∈ launch.arriving, blacklistTag.isPrefixOf entry = false → 61 ∈ entry) ∧
    ∃ pid, host.fork = .ok pid ∧ registry.Free pid.1
  | .registerApp appPid => registry.Free appPid
  | _ => True

theorem refused_verified (failed : threw tried = true) : Refused (verified value tried) := by
  cases tried with
  | ok success => cases failed
  | error message => trivial

theorem refused_flag (failed : threw tried = true) : Refused (.ok (.flag (seenOK tried))) := by
  cases tried with
  | ok success => cases failed
  | error message => rfl

theorem names_verified (named : Names appId (verified value tried)) : Names appId (.ok value) := by
  unfold verified at named
  split at named
  · exact named
  · cases named

theorem names_id (answered : threw tried = false) (named : Names appId (seenID tried)) : tried = .ok appId := by
  cases tried with
  | ok given =>
    rw [seenID] at named
    split at named
    · cases named
    · exact congrArg Except.ok named
  | error message => cases answered

theorem readMPIRResp_head (whole : s.flatten = writeMPIRResp pad mpirId launcherPid jobId stepId numPids size ++ rest)
    (returned : readMPIRResp s = .ok result s') : mpirId ≠ 0 ∧ result.mpirId = mpirId := by
  obtain ⟨raw,header,type,id,-⟩ := consumes_header pad mpirId launcherPid jobId stepId numPids size
  obtain ⟨middle,read,-⟩ := header s rest whole
  rw [readMPIRResp,bind_after (outcome_ok read)] at returned
  by_cases zero : mpirId = 0
  · simp only [type,id,ne_eq,not_true_eq_false,if_false,if_pos zero] at returned
    split at returned
    · obtain ⟨message,_,_,thrown⟩ := bind_ok.mp returned
      cases message <;> cases thrown
    · cases returned
  · simp only [type,id,ne_eq,not_true_eq_false,if_false,if_neg zero] at returned
    obtain ⟨proctable,_,_,same⟩ := bind_ok.mp returned
    cases same
    exact ⟨zero,rfl⟩

theorem mpir_returned (whole : s.flatten = tryWriteMPIRResp pad tried) (returned : (outcome (readMPIRResp s)).1 = .ok result) :
    ∃ answer, tried = .ok answer ∧ answer.mpirId = result.mpirId := by
  cases ran : readMPIRResp s with
  | error e s' => rw [ran] at returned; cases returned
  | ok value s' =>
    rw [ran] at returned
    cases returned
    cases tried with
    | ok answer => exact ⟨answer,rfl,(readMPIRResp_head whole ran).2.symm⟩
    | error message => exact absurd rfl (readMPIRResp_head whole ran).1

theorem mpir_names (whole : s.flatten = tryWriteMPIRResp pad tried)
    (named : Names appId (outcome ((do return .mpir (← readMPIRResp) : Read Returned) s)).1) :
    ∃ answer, tried = .ok answer ∧ some answer.mpirId = some appId := by
  rw [outcome_map] at named
  cases read : (outcome (readMPIRResp s)).1 with
  | error e => rw [read] at named; cases named
  | ok result =>
    obtain ⟨answer,same,number⟩ := mpir_returned whole read
    rw [read] at named
    exact ⟨answer,same,by rw [number]; exact congrArg some named⟩

theorem mpir_refused (whole : s.flatten = tryWriteMPIRResp pad tried)
    (failed : threw tried = true) : Refused (outcome ((do return .mpir (← readMPIRResp) : Read Returned) s)).1 := by
  rw [outcome_map]
  cases read : (outcome (readMPIRResp s)).1 with
  | error e => trivial
  | ok result =>
    obtain ⟨answer,rfl,_⟩ := mpir_returned whole read
    cases failed

theorem string_refused (whole : s.flatten = tryWriteStringResp pad tried)
    (failed : threw tried = true) : Refused (outcome ((do return .text (← readStringResp) : Read Returned) s)).1 := by
  cases tried with
  | ok text => cases failed
  | error message =>
    rw [consumes_result (consumes_stringOutcome pad (.error message) trivial) whole]
    trivial

theorem await_names {pad : Padding} {request : Request} {tried : Except CStr (Answer request.type.family)}
    (whole : s.flatten = respond pad request.type.family tried) (answered : request.type.family = .id → threw tried = false)
    (named : Names appId (outcome (request.await s)).1) : ∃ answer, tried = .ok answer ∧ idOf request.type.family answer = some appId := by
  have number (tried : Except CStr Id) (whole : s.flatten = tryWriteIDResp pad tried) (answered : threw tried = false)
      (named : Names appId (outcome ((do return .id (← readIDResp) : Read Returned) s)).1) :
      ∃ answer, tried = .ok answer ∧ some answer = some appId := by
    rw [consumes_result (consumes_idOutcome pad) whole] at named
    exact ⟨appId,names_id answered named,rfl⟩
  have checked (value : Returned) (tried : Except CStr Bool) (whole : s.flatten = tryWriteOKResp pad tried)
      (named : Names appId (outcome ((do verifyOKResp; return value : Read Returned) s)).1) : Names appId (.ok value) := by
    rw [consumes_result (consumes_verified pad value tried) whole] at named
    exact names_verified named
  cases request with
  | forkExecvpApp launch | registerApp appPid => exact number tried whole (answered rfl) named
  | launchMPIR launch | launchMPIRShim shimBinaryPath temporaryShimBinDir shimmedLauncherPath launch => exact mpir_names whole named
  | attachMPIR launcherPath launcherPid => exact mpir_names whole named
  | readStringMPIR mpirId name =>
    rw [Request.await,outcome_map] at named
    cases read : (outcome (readStringResp s)).1 <;> rw [read] at named <;> cases named
  | forkExecvpUtil appId runMode launch =>
    cases runMode with
    | asynchronous => exact (checked (.flag true) tried whole named).elim
    | synchronous =>
      rw [Request.await,outcome_map] at named
      cases read : (outcome (readOKResp s)).1 <;> rw [read] at named <;> cases named
  | checkApp appId =>
    rw [Request.await,outcome_map] at named
    cases read : (outcome (readOKResp s)).1 <;> rw [read] at named <;> cases named
  | _ => exact (checked .done tried whole named).elim

theorem await_refused {pad : Padding} {request : Request} {tried : Except CStr (Answer request.type.family)}
    (whole : s.flatten = respond pad request.type.family tried) (failed : threw tried = true) :
    Refused (outcome (request.await s)).1 ↔ request.type.family ≠ .id := by
  have number (tried : Except CStr Id) (whole : s.flatten = tryWriteIDResp pad tried) (failed : threw tried = true) :
      ¬ Refused (outcome ((do return .id (← readIDResp) : Read Returned) s)).1 := by
    rw [consumes_result (consumes_idOutcome pad) whole]
    cases tried with
    | ok appId => cases failed
    | error message => exact id
  have checked (value : Returned) (tried : Except CStr Bool) (whole : s.flatten = tryWriteOKResp pad tried)
      (failed : threw tried = true) : Refused (outcome ((do verifyOKResp; return value : Read Returned) s)).1 := by
    rw [consumes_result (consumes_verified pad value tried) whole]
    exact refused_verified failed
  have flag (tried : Except CStr Bool) (whole : s.flatten = tryWriteOKResp pad tried) (failed : threw tried = true) :
      Refused (outcome ((do return .flag (← readOKResp) : Read Returned) s)).1 := by
    rw [consumes_result (consumes_map (consumes_okOutcome pad tried) Returned.flag) whole]
    exact refused_flag failed
  cases request with
  | forkExecvpApp launch | registerApp appPid => exact iff_of_false (number tried whole failed) (not_not_intro rfl)
  | launchMPIR launch => exact iff_of_true (mpir_refused whole failed) nofun
  | launchMPIRShim shimBinaryPath temporaryShimBinDir shimmedLauncherPath launch => exact iff_of_true (mpir_refused whole failed) nofun
  | attachMPIR launcherPath launcherPid => exact iff_of_true (mpir_refused whole failed) nofun
  | readStringMPIR mpirId name => exact iff_of_true (string_refused whole failed) nofun
  | forkExecvpUtil appId runMode launch =>
    cases runMode with
    | asynchronous => exact iff_of_true (checked (.flag true) tried whole failed) nofun
    | synchronous => exact iff_of_true (flag tried whole failed) nofun
  | checkApp appId => exact iff_of_true (flag tried whole failed) nofun
  | _ => exact iff_of_true (checked .done tried whole failed) nofun

section Handling
variable {host : Host} {registry : Registry}

inductive Origin (perform : Operations) (type : ReqType) (s : Chunks Cell) :
    Option Command → Except CStr (Answer type.family) → Prop where
  | unread : readCommand type s = .error e s' → threw tried = true → Origin perform type s none tried
  | read : readCommand type s = .ok command s' → Origin perform type s (some command) (perform.run type command)

theorem handle_origin (pad : Padding) (perform : Operations) (type : ReqType) (s : Chunks Cell) :
    ∃ command tried s', Origin perform type s command tried ∧ handle pad perform type s =
      .ok ⟨command,threw tried,respond pad type.family tried,decide (type ≠ .Shutdown)⟩ s' := by
  unfold handle
  cases understood : readCommand type s with
  | ok command s' => exact ⟨some command,_,s',.read understood,rfl⟩
  | error e s' => exact ⟨none,.error e.what,s',.unread understood rfl,rfl⟩

theorem operations_threw : threw (operations host registry type command) = false ↔
    ∃ answer registry', operate host type command registry = .ok answer registry' := by
  unfold operations
  cases ran : operate host type command registry with
  | ok answer registry' => exact ⟨fun _ => ⟨answer,registry',rfl⟩,fun _ => rfl⟩
  | error what registry' => exact ⟨nofun,nofun⟩

theorem run_registered (ran : (operations host registry).run type command = .ok answer) (number : idOf type.family answer = some appId) :
    (registry.afterwards host type (some command)).Registered appId := by
  have same : (operations host registry).run type command = operations host registry type command := by
    cases type with
    | Shutdown => cases number
    | _ => rfl
  rw [same,operations] at ran
  cases done : operate host type command registry with
  | error what registry' => rw [done] at ran; cases ran
  | ok given registry' =>
    rw [done] at ran
    cases ran
    rw [Registry.afterwards,done]
    exact operate_registered host done number

theorem registerApp_answered (whole : s.flatten = writeInt appPid)
    (origin : Origin (operations host registry) .RegisterApp s command tried) : threw tried = false ↔ registry.Free appPid := by
  have read := yields_consumes (consumes_map (consumes_readInt appPid) Command.registerApp)
  obtain ⟨s',understood⟩ := read s [] (by rw [whole,List.append_nil])
  cases origin with
  | unread failed _ => cases understood.symm.trans failed
  | read known =>
    cases understood.symm.trans known
    refine operations_threw.trans ⟨?_,fun free => ⟨_,_,registerAppPID_free free⟩⟩
    rintro ⟨appId,registry',done⟩
    exact (registerAppPID_ok.mp done).1

theorem forkExecvpApp_answered (whole : s.flatten = writeLaunchData launch)
    (origin : Origin (operations host registry) .ForkExecvpApp s command tried) :
    threw tried = false ↔ Answerable host registry (.forkExecvpApp launch) := by
  have whole' : s.flatten = writeLaunchData launch ++ [] := by rw [whole,List.append_nil]
  by_cases readable : launch.Readable
  · have read : Yields (readCommand .ForkExecvpApp) (writeLaunchData launch) (.forkExecvpApp launch.received) :=
      yields_last (yields_readLaunchData readable) (yields_consumes consumes_pure)
    obtain ⟨s',understood⟩ := read s [] whole'
    cases origin with
    | unread failed _ => cases understood.symm.trans failed
    | read known =>
      cases understood.symm.trans known
      refine operations_threw.trans ((forkExecvpApp_ok host).trans ?_)
      rw [received_env,Launch.received,filepath_foldl]
      exact ⟨fun rest => ⟨readable,rest⟩,And.right⟩
  · have unread : Fails (readCommand .ForkExecvpApp) (writeLaunchData launch) := fails_stop (fails_readLaunchData readable)
    obtain ⟨e,s',failed⟩ := unread s [] whole'
    cases origin with
    | unread _ threw => exact iff_of_false (by rw [threw]; exact Bool.noConfusion) fun answerable => readable answerable.1
    | read known => cases failed.symm.trans known

theorem answered_exact {request : Request} {tried : Except CStr (Answer request.type.family)}
    (number : request.type.family = .id) (whole : s.flatten = request.payload)
    (origin : Origin (operations host registry) request.type s command tried) : threw tried = false ↔ Answerable host registry request := by
  cases request with
  | forkExecvpApp launch => exact forkExecvpApp_answered whole origin
  | registerApp appPid => exact registerApp_answered whole origin
  | _ => cases number

theorem answerable_other (other : request.type.family ≠ .id) : Answerable host registry request := by
  cases request with
  | forkExecvpApp launch | registerApp appPid => exact absurd rfl other
  | _ => trivial

end Handling

section Visibility
variable (host : Host) (registry : Registry) (request : Request) (pad : Padding) (daemonReads clientReads : Cutting)

theorem exchange_origin : ∃ s command tried, s.flatten = request.payload ∧ Origin (operations host registry) request.type s command tried ∧
    exchange host registry request pad daemonReads clientReads = .ok ⟨threw tried,
      (outcome (request.await (clientReads.cut (respond pad request.type.family tried)))).1,
      registry.afterwards host request.type command⟩ := by
  obtain ⟨s,turn,left⟩ := serve_handle pad (operations host registry) request.type (daemonReads.whole request.cells)
  obtain ⟨command,tried,s',origin,handled⟩ := handle_origin pad (operations host registry) request.type s
  refine ⟨s,command,tried,left,origin,?_⟩
  simp only [exchange,Round.serve,turn,handled]
  rfl

theorem failure_visible_exact : ∃ exchanged, exchange host registry request pad daemonReads clientReads = .ok exchanged ∧
    (exchanged.FailureVisible ↔ Answerable host registry request) := by
  obtain ⟨s,command,tried,whole,origin,done⟩ := exchange_origin host registry request pad daemonReads clientReads
  refine ⟨_,done,?_⟩
  have sent := clientReads.whole (respond pad request.type.family tried)
  constructor
  · rintro ⟨refused,-⟩
    by_cases number : request.type.family = .id
    · rw [← answered_exact number whole origin]
      by_contra failed
      have failed := Bool.eq_true_of_not_eq_false failed
      exact (await_refused sent failed).mp (refused failed) number
    · exact answerable_other number
  · intro answerable
    have answered (number : request.type.family = .id) : threw tried = false := (answered_exact number whole origin).mpr answerable
    constructor
    · intro failed
      refine (await_refused sent failed).mpr fun number => ?_
      rw [answered number] at failed
      cases failed
    · intro appId named
      obtain ⟨answer,given,number⟩ := await_names sent answered named
      cases origin with
      | unread _ failed => rw [given] at failed; cases failed
      | read known => exact run_registered given number

end Visibility

-- Registering a pid for the second time is refused by the daemon, and the front
-- end has number zero for it, which no application was ever registered under.
theorem duplicate_gets_zero : (exchange bareHost (Registry.start.added 7) (.registerApp 7) zeroes inOneGo inOneGo).map
        (fun exchanged => (exchanged.failed,exchanged.result,(exchanged.registry.idPidMap.find 0).isSome)) =
      .ok (true,.ok (.id 0),false) := by
  decide

end CommonTools.FeDaemon
