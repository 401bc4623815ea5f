import CommonTools.FeDaemon.Framing

namespace CommonTools.FeDaemon
open Numerals Streams List

theorem field_head (size : front.length = width) : field (front ++ rest) 0 width = unlittle front := by
  rw [field,drop_zero,take_left' size]

theorem field_next (size : front.length = width) (beyond : width ≤ offset) :
    field (front ++ rest) offset n = field rest (offset - width) n := by
  rw [field,field,drop_append,size,drop_eq_nil_of_le (by omega),nil_append]

theorem flag_fields (respType : Nat) (type : respType < 256 ^ 8) (success : Bool) (rest : Bytes) :
    field (little 8 respType ++ ([boolByte success] ++ rest)) 0 8 = respType ∧
      field (little 8 respType ++ ([boolByte success] ++ rest)) 8 1 = if success then 1 else 0 := by
  constructor
  · rw [field_head (little_length 8 respType),unlittle_little,Nat.mod_eq_of_lt type]
  · cases success <;> rfl

theorem consumes_flags (pad : Padding) (respType : Nat) (success : Bool) : Consumes (readBytes 16) (writeFlagResp pad respType success)
      (.ok (little 8 respType ++ ([boolByte success] ++ (pad 7).1))) := by
  rw [writeFlagResp,← plain_append]
  apply consumes_readBytes
  rw [length_append,length_cons,little_length,(pad 7).2]

theorem consumes_readOKResp : Consumes readOKResp (writeOKResp pad success) (.ok success) := by
  obtain ⟨type,flag⟩ := flag_fields 0 (by decide) success (pad 7).1
  refine consumes_last (consumes_flags pad 0 success) ?_
  rw [type,flag,if_neg (not_not_intro rfl)]
  cases success <;> exact consumes_pure

theorem consumes_verifyOKResp (pad : Padding) (success : Bool) : Consumes verifyOKResp (writeOKResp pad success)
      (if success then .ok () else .error (.text "daemon response indicated failure")) := by
  refine consumes_last consumes_readOKResp ?_
  cases success
  · exact consumes_throw
  · exact consumes_pure

theorem word_field : BitVec.ofNat 32 (field (little 4 value.toNat ++ rest) 0 4) = value := by
  rw [field_head (little_length 4 _),word_little (by decide)]

theorem consumes_readIDResp (pad : Padding) (id : Id) : Consumes readIDResp (writeIDResp pad id)
      (if id.toInt < 0 then .error (.text "failed to read DaemonAppID response") else .ok id) := by
  have whole : Consumes (readBytes 16) (writeIDResp pad id) (.ok (little 8 1 ++ (little 4 id.toNat ++ (pad 4).1))) := by
    rw [writeIDResp,writeInt,← plain_append,← plain_append]
    apply consumes_readBytes
    rw [length_append,length_append,little_length,little_length,(pad 4).2]
  refine consumes_last whole ?_
  have type : field (little 8 1 ++ (little 4 id.toNat ++ (pad 4).1)) 0 8 = 1 := field_head (little_length 8 1)
  have value : BitVec.ofNat 32 (field (little 8 1 ++ (little 4 id.toNat ++ (pad 4).1)) 8 4) = id := by
    exact word_field
  simp only [type,value]
  by_cases negative : id.toInt < 0
  · rw [if_pos negative,if_pos (.inr negative)]
    exact consumes_throw
  · rw [if_neg negative,if_neg (not_or.mpr ⟨not_not_intro rfl,negative⟩)]
    exact consumes_pure

def mpirHeader (pad : Padding) (mpirId : Id) (launcherPid : Pid) (jobId stepId numPids : BitVec 32)
    (errorMsgLen : BitVec 64) : Bytes :=
  little 8 3 ++ (little 4 mpirId.toNat ++ (little 4 launcherPid.toNat ++ (little 4 jobId.toNat ++
    (little 4 stepId.toNat ++ (little 4 numPids.toNat ++ ((pad 4).1 ++ little 8 errorMsgLen.toNat))))))

section Header
variable (pad : Padding) (mpirId : Id) (launcherPid : Pid) (jobId stepId numPids : BitVec 32) (errorMsgLen : BitVec 64)

theorem header_length : (mpirHeader pad mpirId launcherPid jobId stepId numPids errorMsgLen).length = 40 := by
  simp [mpirHeader,little_length,(pad 4).2]

theorem plain_header : writeMPIRResp pad mpirId launcherPid jobId stepId numPids errorMsgLen =
    plain (mpirHeader pad mpirId launcherPid jobId stepId numPids errorMsgLen) := by
  simp only [writeMPIRResp,mpirHeader,writeInt,plain_append]

theorem header_fields (header : raw = mpirHeader pad mpirId launcherPid jobId stepId numPids errorMsgLen) :
    field raw 0 8 = 3 ∧ BitVec.ofNat 32 (field raw 8 4) = mpirId ∧ BitVec.ofNat 32 (field raw 12 4) = launcherPid ∧
      BitVec.ofNat 32 (field raw 16 4) = jobId ∧ BitVec.ofNat 32 (field raw 20 4) = stepId ∧
      BitVec.ofNat 32 (field raw 24 4) = numPids ∧ field raw 32 8 = errorMsgLen.toNat := by
  have long (n offset : Nat) (rest : Bytes) (beyond : 4 ≤ offset) :
      field (little 4 n ++ rest) offset = field rest (offset - 4) :=
    funext fun _ => field_next (little_length 4 n) beyond
  have start (offset : Nat) (rest : Bytes) (beyond : 8 ≤ offset) :
      field (little 8 3 ++ rest) offset = field rest (offset - 8) :=
    funext fun _ => field_next (little_length 8 3) beyond
  subst header
  refine ⟨field_head (little_length 8 3),?_,?_,?_,?_,?_,?_⟩
  all_goals simp only [mpirHeader,start,long,word_field,Nat.reduceLeDiff,Nat.reduceSub]
  rw [field_next (pad 4).2 (Nat.le_refl 4),← append_nil (little 8 _)]
  rw [field_head (little_length 8 _),unlittle_little]
  exact Nat.mod_eq_of_lt errorMsgLen.isLt

theorem consumes_header : ∃ raw, Consumes (readBytes 40) (writeMPIRResp pad mpirId launcherPid jobId stepId numPids errorMsgLen) (.ok raw) ∧
      field raw 0 8 = 3 ∧ BitVec.ofNat 32 (field raw 8 4) = mpirId ∧ BitVec.ofNat 32 (field raw 12 4) = launcherPid ∧
      BitVec.ofNat 32 (field raw 16 4) = jobId ∧ BitVec.ofNat 32 (field raw 20 4) = stepId ∧
      BitVec.ofNat 32 (field raw 24 4) = numPids ∧ field raw 32 8 = errorMsgLen.toNat := by
  refine ⟨mpirHeader pad mpirId launcherPid jobId stepId numPids errorMsgLen,?_,header_fields pad _ _ _ _ _ _ rfl⟩
  rw [plain_header]
  exact consumes_readBytes _ (header_length pad _ _ _ _ _ _)

end Header

theorem consumes_readCharsLoop (clean : 0 ∉ text) (enough : text.length < fuel) (str : Bytes) :
    Consumes (readCharsLoop fuel str) (plain (text ++ [0])) (.ok (str ++ text)) := by
  induction text generalizing fuel str with
  | nil =>
    obtain ⟨fuel,rfl⟩ := Nat.exists_eq_add_one.mpr enough
    rw [append_nil]
    exact consumes_last (consumes_readBytes [0] rfl) consumes_pure
  | cons b text ih =>
    obtain ⟨fuel,rfl⟩ := Nat.exists_eq_add_one.mpr (Nat.zero_lt_of_lt enough)
    have rest := ih (fun zero => clean (mem_cons_of_mem _ zero)) (Nat.lt_of_succ_lt_succ enough) (str ++ [b])
    rw [append_assoc] at rest
    refine consumes_bind (consumes_readBytes [b] rfl) ?_
    have other : [b].headD 0 ≠ 0 := fun zero => clean (zero ▸ mem_cons_self)
    rw [if_neg other]
    exact rest

theorem consumes_readChars : Consumes readChars (writeString text) (.ok text.1) := by
  apply consumes_remaining
  intro fuel enough
  refine consumes_readCharsLoop text.2 ?_ []
  rw [writeString,plain,length_map,length_append] at enough
  omega

def ProctableElem.seen (elem : ProctableElem) : ElemRead := ⟨elem.pid,elem.hostname.1,elem.executable.1⟩

theorem consumes_readElems {elems : List ProctableElem} :
    Consumes (readElems elems.length) (elems.flatMap writeElem) (.ok (elems.map ProctableElem.seen)) := by
  induction elems with
  | nil => exact consumes_pure
  | cons elem elems ih =>
    rw [flatMap_cons,writeElem,append_assoc,append_assoc]
    refine consumes_bind (consumes_readInt elem.pid) ?_
    refine consumes_bind consumes_readChars ?_
    refine consumes_bind consumes_readChars ?_
    exact consumes_map ih fun rest => elem.seen :: rest

theorem cstr_ended : cstr ((message.1 ++ [0]).set (message.1.length + 1 - 1) 0) = message := by
  have same : (message.1 ++ [0]).set (message.1.length + 1 - 1) 0 = message.1 ++ [0] := by
    rw [Nat.add_sub_cancel,set_append_right _ _ (Nat.le_refl _),Nat.sub_self]
    rfl
  have clean : ∀ b ∈ message.1, decide (b ≠ 0) = true := fun b inside =>
    decide_eq_true fun zero => message.2 (zero ▸ inside)
  apply Subtype.ext
  rw [same]
  change (message.1 ++ [0]).takeWhile (· ≠ 0) = message.1
  rw [takeWhile_append_of_pos clean]
  exact append_nil _

section Outcomes

def seenOK : Except CStr Bool → Bool
  | .ok success => success
  | .error _ => false

def verified (value : Returned) (outcome : Except CStr Bool) : Except Failure Returned :=
  if seenOK outcome then .ok value else .error (.text "daemon response indicated failure")

-- A failure is sent as number zero, which the reader takes for an answer.
def seenID : Except CStr Id → Except Failure Returned
  | .ok id => if id.toInt < 0 then .error (.text "failed to read DaemonAppID response") else .ok (.id id)
  | .error _ => .ok (.id 0)

def seenString : Except CStr CStr → Except Failure Returned
  | .ok text => .ok (.text text.1)
  | .error _ => .error (.text "daemon failed to read string from memory")

def seenMPIR : Except CStr MPIRResult → Except Failure Returned
  | .ok result =>
    if result.mpirId = 0 then .error (.text "failed to perform MPIR launch")
    else .ok (.mpir ⟨result.mpirId,result.launcherPid,result.jobId,result.stepId,result.proctable.map ProctableElem.seen⟩)
  | .error message => .error (.received message.1)

-- What a request_ function comes back with once the daemon has an outcome.
def Request.seen : (request : Request) → Except CStr (Answer request.type.family) → Except Failure Returned
  | .forkExecvpApp _ => seenID
  | .forkExecvpUtil _ .asynchronous _ => verified (.flag true)
  | .forkExecvpUtil _ .synchronous _ => fun outcome => .ok (.flag (seenOK outcome))
  | .launchMPIR _ => seenMPIR
  | .launchMPIRShim _ _ _ _ => seenMPIR
  | .attachMPIR _ _ => seenMPIR
  | .readStringMPIR _ _ => seenString
  | .registerApp _ => seenID
  | .checkApp _ => fun outcome => .ok (.flag (seenOK outcome))
  | .releaseMPIR _ => verified .done
  | .waitMPIR _ => verified .done
  | .terminateMPIR _ => verified .done
  | .registerUtil _ _ => verified .done
  | .registerUtilWithSigkill _ _ => verified .done
  | .deregisterApp _ => verified .done
  | .releaseApp _ => verified .done
  | .shutdown => verified .done

def Answered : (family : Family) → Except CStr (Answer family) → Prop
  | .ok,_ => True
  | .id,_ => True
  | .string,.ok text => Legible (Subtype.val text)
  | .string,.error _ => True
  | .mpir,.ok result => (MPIRResult.mpirId result = 0 → MPIRResult.proctable result = []) ∧
    (MPIRResult.proctable result).length < 2 ^ 31
  | .mpir,.error message => message.1.length + 1 < 2 ^ 64

variable (pad : Padding)

theorem consumes_okOutcome (outcome : Except CStr Bool) : Consumes readOKResp (tryWriteOKResp pad outcome) (.ok (seenOK outcome)) := by
  cases outcome with
  | ok success | error message => exact consumes_readOKResp

theorem consumes_verified (value : Returned) (outcome : Except CStr Bool) :
    Consumes (do verifyOKResp; return value) (tryWriteOKResp pad outcome) (verified value outcome) := by
  have sent : tryWriteOKResp pad outcome = writeOKResp pad (seenOK outcome) := by cases outcome <;> rfl
  have read := consumes_verifyOKResp pad (seenOK outcome)
  rw [sent,verified]
  cases flag : seenOK outcome with
  | true =>
    rw [flag] at read
    exact consumes_map read fun _ => value
  | false =>
    rw [flag] at read
    exact consumes_stop read

theorem consumes_idOutcome {outcome : Except CStr Id} :
    Consumes (do return .id (← readIDResp)) (tryWriteIDResp pad outcome) (seenID outcome) := by
  cases outcome with
  | ok id =>
    have read := consumes_readIDResp pad id
    rw [seenID]
    by_cases negative : id.toInt < 0
    · rw [if_pos negative] at read ⊢
      exact consumes_stop read
    · rw [if_neg negative] at read ⊢
      exact consumes_map read Returned.id
  | error message => exact consumes_map (consumes_readIDResp pad 0) Returned.id

theorem consumes_stringOutcome (outcome : Except CStr CStr) (answered : Answered .string outcome) :
    Consumes (do return .text (← readStringResp)) (tryWriteStringResp pad outcome) (seenString outcome) := by
  cases outcome with
  | ok text =>
    obtain ⟨type,flag⟩ := flag_fields 2 (by decide) true (pad 7).1
    have read : Consumes readStringResp (writeStringResp pad true ++ writeString text) (.ok text.1) := by
      refine consumes_bind (consumes_flags pad 2 true) ?_
      rw [type,flag,if_neg (not_not_intro rfl),if_neg (by decide)]
      exact consumes_last (consumes_receiveString _ text answered) consumes_pure
    exact consumes_map read Returned.text
  | error message =>
    obtain ⟨type,flag⟩ := flag_fields 2 (by decide) false (pad 7).1
    refine consumes_stop (consumes_last (consumes_flags pad 2 false) ?_)
    rw [type,flag,if_neg (not_not_intro rfl),if_pos (by decide)]
    exact consumes_throw

theorem count_field (small : n < 2 ^ 31) : (BitVec.ofNat 32 n).toInt.toNat = n := by
  have value : (BitVec.ofNat 32 n).toNat = n := by
    exact Nat.mod_eq_of_lt (by omega)
  rw [BitVec.toInt_eq_toNat_of_lt (by omega),value,Int.toNat_natCast]

theorem consumes_readMPIRResp (named : result.mpirId ≠ 0) (counted : result.proctable.length < 2 ^ 31) :
    Consumes readMPIRResp (tryWriteMPIRResp pad (.ok result))
      (.ok ⟨result.mpirId,result.launcherPid,result.jobId,result.stepId,result.proctable.map ProctableElem.seen⟩) := by
  obtain ⟨raw,header,type,mpirId,launcherPid,jobId,stepId,numPids,size⟩ := consumes_header pad result.mpirId
    result.launcherPid result.jobId result.stepId (BitVec.ofNat 32 result.proctable.length) 0
  refine consumes_bind header ?_
  simp only [type,mpirId,launcherPid,jobId,stepId,numPids,if_neg named,count_field counted]
  exact consumes_map consumes_readElems _

theorem consumes_mpirResult (counted : result.proctable.length < 2 ^ 31)
    (whole : result.mpirId = 0 → result.proctable = []) :
    Consumes (do return .mpir (← readMPIRResp)) (tryWriteMPIRResp pad (.ok result)) (seenMPIR (.ok result)) := by
  obtain ⟨raw,header,type,mpirId,-,-,-,-,size⟩ := consumes_header pad result.mpirId
    result.launcherPid result.jobId result.stepId (BitVec.ofNat 32 result.proctable.length) 0
  rw [seenMPIR]
  by_cases zero : result.mpirId = 0
  · rw [if_pos zero]
    have empty : result.proctable.flatMap writeElem = [] := by
      rw [whole zero]
      rfl
    rw [tryWriteMPIRResp,empty,append_nil]
    refine consumes_stop (consumes_last header ?_)
    simp only [type,mpirId,size,if_pos zero]
    exact consumes_throw
  · rw [if_neg zero]
    exact consumes_map (consumes_readMPIRResp pad zero counted) Returned.mpir

-- A buffer as long as the header says is filled from what follows it.
theorem consumes_readMPIRError (front : Bytes) (length : BitVec 64) (positive : 0 < length.toNat) (size : front.length = length.toNat) :
    Consumes readMPIRResp (writeMPIRResp pad 0 0 0 0 0 length ++ plain front)
      (.error (.received (cstr (front.set (length.toNat - 1) 0)).1)) := by
  obtain ⟨raw,header,type,mpirId,-,-,-,-,counted⟩ := consumes_header pad 0 0 0 0 0 length
  have body : Consumes (readErrorMessage length.toNat) (plain front) (.ok (some front)) :=
    consumes_try (consumes_map (consumes_readBytes front size) some)
  refine consumes_bind header ?_
  simp only [type,mpirId,counted,if_pos positive]
  exact consumes_last body consumes_throw

theorem consumes_mpirError (fits : message.1.length + 1 < 2 ^ 64) :
    Consumes (do return .mpir (← readMPIRResp)) (tryWriteMPIRResp pad (.error message)) (seenMPIR (.error message)) := by
  have length : (BitVec.ofNat 64 (message.1.length + 1)).toNat = message.1.length + 1 := by rw [BitVec.toNat_ofNat,Nat.mod_eq_of_lt fits]
  have read := consumes_readMPIRError pad (message.1 ++ [0]) (BitVec.ofNat 64 (message.1.length + 1)) (by omega)
    (by rw [length,length_append]; rfl)
  rw [length,cstr_ended] at read
  exact consumes_stop read

theorem consumes_await {request : Request} {outcome : Except CStr (Answer request.type.family)}
    (answered : Answered request.type.family outcome) :
    Consumes request.await (respond pad request.type.family outcome) (request.seen outcome) := by
  have mpir (outcome : Except CStr MPIRResult) (answered : Answered .mpir outcome) :
      Consumes (do return .mpir (← readMPIRResp)) (tryWriteMPIRResp pad outcome) (seenMPIR outcome) := by
    cases outcome with
    | ok result => exact consumes_mpirResult pad answered.2 answered.1
    | error message => exact consumes_mpirError pad answered
  cases request with
  | forkExecvpApp launch => exact consumes_idOutcome pad
  | forkExecvpUtil appId runMode launch =>
    cases runMode with
    | asynchronous => exact consumes_verified pad (.flag true) outcome
    | synchronous => exact consumes_map (consumes_okOutcome pad outcome) Returned.flag
  | launchMPIR launch | launchMPIRShim shimBinaryPath temporaryShimBinDir shimmedLauncherPath launch => exact mpir outcome answered
  | attachMPIR launcherPath launcherPid => exact mpir outcome answered
  | readStringMPIR mpirId name => exact consumes_stringOutcome pad outcome answered
  | registerApp appPid => exact consumes_idOutcome pad
  | checkApp appId => exact consumes_map (consumes_okOutcome pad outcome) Returned.flag
  | _ => exact consumes_verified pad .done outcome

end Outcomes

end CommonTools.FeDaemon
