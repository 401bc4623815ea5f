import CommonTools.FeDaemon.Conversation

namespace CommonTools.FeDaemon
open Numerals Streams
open List hiding count

structure Transport (m : Type → Type) where
  bytes : Nat → m Bytes
  turns : m Nat

namespace Transport
variable {m : Type → Type} [Monad m] [MonadExceptOf Failure m] (transport : Transport m)

def int : m (BitVec 32) := do return BitVec.ofNat 32 (unlittle (← transport.bytes 4))

def charsLoop : Nat → Bytes → m Bytes
  | 0,str => pure str
  | fuel + 1,str => do
    let raw ← transport.bytes 1
    if raw.headD 0 = 0 then return str else charsLoop fuel (str ++ raw)

def chars : m Bytes := do
  let fuel ← transport.turns
  transport.charsLoop fuel []

def elems : Nat → m (List ElemRead)
  | 0 => pure []
  | count + 1 => do
    let pid ← transport.int
    let hostname ← transport.chars
    let executable ← transport.chars
    let rest ← elems count
    return ⟨pid,hostname,executable⟩ :: rest

def errorMessage (size : Nat) : m (Option Bytes) :=
  tryCatchThe Failure (do return some (← transport.bytes size)) fun _ => pure none

def mpirResp : m MPIRRead := do
  let raw ← transport.bytes 40
  let mpirId : Id := BitVec.ofNat 32 (field raw 8 4)
  let numPids : BitVec 32 := BitVec.ofNat 32 (field raw 24 4)
  let errorMsgLen := field raw 32 8
  if field raw 0 8 ≠ 3 then throw (.text "daemon did not send expected MPIR response type")
  else if mpirId = 0 then
    if errorMsgLen > 0 then
      match ← transport.errorMessage errorMsgLen with
      | some buf => throw (.received (cstr (buf.set (errorMsgLen - 1) 0)).1)
      | none => throw (.text "failed to perform MPIR launch")
    else throw (.text "failed to perform MPIR launch")
  else
    let proctable ← transport.elems numPids.toInt.toNat
    return ⟨mpirId,BitVec.ofNat 32 (field raw 12 4),BitVec.ofNat 32 (field raw 16 4),BitVec.ofNat 32 (field raw 20 4),
      proctable⟩

theorem mpirResp_unnamed (transport : Transport (EStateM Failure σ)) (got : transport.bytes 40 s = .ok raw s')
    (unnamed : BitVec.ofNat 32 (field raw 8 4) = 0) : ∃ e t, transport.mpirResp s = .error e t := by
  rw [mpirResp,Programs.bind_after got]
  split
  · exact ⟨_,_,rfl⟩
  · split
    · cases read : transport.errorMessage (field raw 32 8) s' with
      | error e t => exact ⟨e,t,Programs.bind_stopped read⟩
      | ok buf t =>
        rw [Programs.bind_after read]
        cases buf <;> exact ⟨_,_,rfl⟩
    · exact ⟨_,_,rfl⟩

end Transport

def socket : Transport Read := ⟨readBytes,remaining⟩

theorem socket_charsLoop : socket.charsLoop fuel str = readCharsLoop fuel str := by
  induction fuel generalizing str with
  | zero => rfl
  | succ fuel ih =>
    unfold Transport.charsLoop readCharsLoop
    simp only [ih]
    rfl

theorem socket_elems : socket.elems count = readElems count := by
  have chars : socket.chars = readChars := by
    unfold Transport.chars readChars
    simp only [socket_charsLoop]
    rfl
  induction count with
  | zero => rfl
  | succ count ih =>
    unfold Transport.elems readElems
    rw [ih,chars]
    rfl

theorem socket_mpirResp : socket.mpirResp = readMPIRResp := by
  unfold Transport.mpirResp readMPIRResp
  simp only [socket_elems]
  rfl

-- What comes over the channel, and what the variables it is read into hold
-- before: one entry for each read, and zeros for those beyond the list. A run
-- that ends makes finitely many reads.
structure Channel where
  stream : Chunks Cell
  memory : List Bytes

abbrev RemoteRead := EStateM Failure Channel

def uninitialized (memory : List Bytes) (size : Nat) : Bytes := (memory.headD [] ++ List.replicate size 0).take size

-- readLoop with channel_read: at the end of the stream the loop is left, and
-- nobody looks at how much has come.
def channelBytes (size : Nat) : RemoteRead Bytes := fun channel =>
  let got := (readUpTo size size channel.stream).1.map Cell.byte
  .ok (got ++ (uninitialized channel.memory size).drop got.length)
    ⟨(readUpTo size size channel.stream).2,channel.memory.tail⟩

def channel : Transport RemoteRead :=
  ⟨channelBytes,fun channel => .ok (channel.stream.flatten.length + channel.memory.length + 1) channel⟩

inductive RemoteCall where
  | launchMPIR
  | readStringMPIR (mpirId : Id) (name : CStr)
  | releaseMPIR (mpirId : Id)
  | waitMPIR (mpirId : Id)
  | checkApp (mpirId : Id)
  | deregisterApp (mpirId : Id)
  | stopRemoteDaemon (daemonPid : Pid)

def RemoteCall.family : RemoteCall → Family
  | .launchMPIR => .mpir
  | .readStringMPIR _ _ => .string
  | _ => .ok

def remoteOK : RemoteRead Bool := do
  let raw ← channelBytes 16
  return decide (field raw 0 8 = 0)

def verifyRemoteOK (message : String) : RemoteRead Returned := do
  if ← remoteOK then return .done else throw (.text message)

def RemoteCall.await : RemoteCall → RemoteRead Returned
  | .launchMPIR => do return .mpir (← channel.mpirResp)
  | .readStringMPIR _ _ => do
    let raw ← channelBytes 16
    if field raw 0 8 ≠ 2 then throw (.text "daemon did not send expected String response type")
    else if field raw 8 1 = 0 then throw (.text "daemon failed to read string from memory")
    else return .text (← channel.chars)
  | .releaseMPIR _ => verifyRemoteOK "warning: remote daemon failed to release from barrier"
  | .waitMPIR _ => do return .flag (← remoteOK)
  | .checkApp _ => do return .flag (← remoteOK)
  | .deregisterApp _ => verifyRemoteOK "warning: remote daemon failed to deregister application"
  | .stopRemoteDaemon daemonPid => verifyRemoteOK ("remote daemon shutdown failed (has PID " ++ toString daemonPid.toInt ++ ")")

section Agreement
variable (pad : Padding)

-- The same operation over ssh and on the local daemon.
inductive Mirrors : RemoteCall → Request → Prop where
  | releaseMPIR (mpirId : Id) : Mirrors (.releaseMPIR mpirId) (.releaseMPIR mpirId)
  | waitMPIR (mpirId : Id) : Mirrors (.waitMPIR mpirId) (.waitMPIR mpirId)
  | checkApp (appId : Id) : Mirrors (.checkApp appId) (.checkApp appId)
  | deregisterApp (appId : Id) : Mirrors (.deregisterApp appId) (.deregisterApp appId)

def reportsSuccess : Except Failure Returned → Bool
  | .ok (.flag success) => success
  | .ok _ => true
  | .error _ => false

def Agree (call : RemoteCall) (request : Request) (answer : Except CStr Bool) : Prop :=
  ∀ memory s s', s.flatten = tryWriteOKResp pad answer → s'.flatten = tryWriteOKResp pad answer →
    reportsSuccess (outcome (call.await ⟨s,memory⟩)).1 = reportsSuccess (outcome (request.await s')).1

theorem uninitialized_length (memory : List Bytes) (size : Nat) : (uninitialized memory size).length = size := by
  simp [uninitialized]

theorem channelBytes_takes : ∃ s', s'.flatten = s.flatten.drop size ∧ channelBytes size ⟨s,memory⟩ =
      .ok ((s.flatten.take size).map Cell.byte ++ (uninitialized memory size).drop s.flatten.length) ⟨s',memory.tail⟩ := by
  obtain ⟨taken,left⟩ := readUpTo_takes size s (Nat.le_refl size)
  refine ⟨(readUpTo size size s).2,left,?_⟩
  have blank := uninitialized_length memory size
  have same : (uninitialized memory size).drop (min size s.flatten.length) =
      (uninitialized memory size).drop s.flatten.length := by
    by_cases short : s.flatten.length ≤ size
    · rw [Nat.min_eq_right short]
    · rw [drop_eq_nil_of_le (by omega),drop_eq_nil_of_le (by omega)]
  simp only [channelBytes,taken,length_map,length_take,same]

theorem channelBytes_whole (whole : s.flatten = plain front) : ∃ s', channelBytes front.length ⟨s,memory⟩ = .ok front ⟨s',memory.tail⟩ := by
  obtain ⟨s',_,got⟩ := channelBytes_takes
  refine ⟨s',got.trans ?_⟩
  have size : (plain front).length = front.length := length_map _
  rw [whole,take_of_length_le (by omega),plain_bytes,drop_eq_nil_of_le (by rw [uninitialized_length,size])]
  simp

theorem remoteOK_answered (memory : List Bytes) (answer : Except CStr Bool) (whole : s.flatten = tryWriteOKResp pad answer) :
    ∃ channel', remoteOK ⟨s,memory⟩ = .ok true channel' := by
  have sent : tryWriteOKResp pad answer = plain (little 8 0 ++ ([boolByte (seenOK answer)] ++ (pad 7).1)) := by
    cases answer <;> exact plain_append.symm
  obtain ⟨s',got⟩ := channelBytes_whole (whole.trans sent)
  have size : (little 8 0 ++ ([boolByte (seenOK answer)] ++ (pad 7).1)).length = 16 := by simp [little_length,(pad 7).2]
  rw [size] at got
  obtain ⟨type,_⟩ := flag_fields 0 (by decide) (seenOK answer) (pad 7).1
  refine ⟨⟨s',memory.tail⟩,?_⟩
  rw [remoteOK,Programs.bind_after got,type]
  rfl

theorem remote_reports (memory : List Bytes) (answer : Except CStr Bool) (mirrors : Mirrors call request)
    (whole : s.flatten = tryWriteOKResp pad answer) : reportsSuccess (outcome (call.await ⟨s,memory⟩)).1 = true := by
  obtain ⟨channel',answered⟩ := remoteOK_answered pad memory answer whole
  cases mirrors <;> simp [RemoteCall.await,verifyRemoteOK,Programs.bind_after answered] <;> rfl

theorem local_reports (answer : Except CStr Bool) (mirrors : Mirrors call request) (whole : s.flatten = tryWriteOKResp pad answer) :
    reportsSuccess (outcome (request.await s)).1 = seenOK answer := by
  have asked := consumes_result (consumes_okOutcome pad answer) whole
  have checked := consumes_result (consumes_verified pad .done answer) whole
  cases mirrors with
  | checkApp appId =>
    rw [show (Request.checkApp appId).await = (do return .flag (← readOKResp)) from rfl,outcome_map,asked]
    rfl
  | _ =>
    refine (congrArg reportsSuccess checked).trans ?_
    cases flag : seenOK answer <;> simp [verified,flag,reportsSuccess]

theorem remote_agrees_exact (mirrors : Mirrors call request) (answer : Except CStr Bool) :
    Agree pad call request answer ↔ seenOK answer = true := by
  constructor
  · intro agree
    have same := agree [] [tryWriteOKResp pad answer] [tryWriteOKResp pad answer] (by simp) (by simp)
    rw [remote_reports pad [] answer mirrors (by simp),local_reports pad answer mirrors (by simp)] at same
    exact same.symm
  · intro success memory s s' whole whole'
    rw [remote_reports pad memory answer mirrors whole,local_reports pad answer mirrors whole',success]

theorem remote_agrees_running : Agree zeroes (.checkApp 1) (.checkApp 1) (.ok true) :=
  (remote_agrees_exact zeroes (.checkApp 1) (.ok true)).mpr rfl

theorem ended_reported_running : ¬ Agree zeroes (.checkApp 1) (.checkApp 1) (.ok false) := by
  intro agree
  have same := agree [] (inOneGo.1 (tryWriteOKResp zeroes (.ok false))) (inOneGo.1 (tryWriteOKResp zeroes (.ok false)))
    (by decide) (by decide)
  revert same
  decide

end Agreement

end CommonTools.FeDaemon
