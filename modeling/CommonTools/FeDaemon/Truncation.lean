import CommonTools.FeDaemon.Ranks
import CommonTools.FeDaemon.Remote

namespace CommonTools.FeDaemon
open Numerals Streams
open List hiding count

section Socket
variable (pad : Padding)

theorem starves_readBytes (bytes : Bytes) (size : bytes.length = wanted) : Starves (readBytes wanted) (plain bytes) :=
  starves_then (starves_readLoop (by simpa [plain] using size))

theorem starves_readInt : Starves readInt (writeInt value) := starves_then (starves_readBytes _ (little_length 4 _))

theorem starves_flags (respType : Nat) (success : Bool) : Starves (readBytes 16) (writeFlagResp pad respType success) := by
  rw [writeFlagResp,← plain_append]
  exact starves_readBytes _ (by simp [little_length,(pad 7).2])

theorem starves_header (mpirId : Id) (launcherPid : Pid) (jobId stepId numPids : BitVec 32) (errorMsgLen : BitVec 64) :
    Starves (readBytes 40) (writeMPIRResp pad mpirId launcherPid jobId stepId numPids errorMsgLen) := by
  rw [plain_header]
  exact starves_readBytes _ (header_length pad _ _ _ _ _ _)

theorem readBytes_ended (ended : s.flatten = []) (some : 0 < wanted) : ∃ e s', readBytes wanted s = .error e s' :=
  starves_readBytes (List.replicate wanted 0) length_replicate s 0 (by simpa [plain] using some) ended

theorem readCharsLoop_ended (clean : 0 ∉ text) (ended : s.flatten = plain text) (enough : text.length < fuel)
    (str : Bytes) : ∃ e s', readCharsLoop fuel str s = .error e s' := by
  induction text generalizing fuel s str with
  | nil =>
    obtain ⟨fuel,rfl⟩ := Nat.exists_eq_add_one.mpr enough
    obtain ⟨e,s',failed⟩ := readBytes_ended ended Nat.one_pos
    exact ⟨e,s',Programs.bind_stopped failed⟩
  | cons b text ih =>
    obtain ⟨fuel,rfl⟩ := Nat.exists_eq_add_one.mpr (Nat.zero_lt_of_lt enough)
    have single : Consumes (readBytes 1) (plain [b]) (.ok [b]) := consumes_readBytes [b] rfl
    obtain ⟨middle,one,left⟩ := single s (plain text) ended
    have other : [b].headD 0 ≠ 0 := fun zero => clean (zero ▸ mem_cons_self)
    obtain ⟨e,s',failed⟩ := ih (fun zero => clean (mem_cons_of_mem _ zero)) left (Nat.lt_of_succ_lt_succ enough) (str ++ [b])
    refine ⟨e,s',?_⟩
    rw [readCharsLoop,Programs.bind_after (outcome_ok one),if_neg other]
    exact failed

theorem cut_text (text : CStr) (cut : Nat) (inside : cut < (writeString text).length) :
    (writeString text).take cut = plain (text.1.take cut) := by
  simp only [writeString,plain,length_map,length_append,length_singleton] at inside
  rw [writeString,plain,← map_take,take_append_of_le_length (Nat.le_of_lt_succ inside)]
  rfl

theorem starves_readChars : Starves readChars (writeString text) := by
  intro s cut inside ended
  rw [cut_text text cut inside] at ended
  have clean : 0 ∉ text.1.take cut := fun zero => text.2 (mem_of_mem_take zero)
  exact readCharsLoop_ended clean ended (by simp [ended,plain]) []

theorem starves_readElems {elems : List ProctableElem} : Starves (readElems elems.length) (elems.flatMap writeElem) := by
  induction elems with
  | nil => exact fun s cut inside => absurd inside (Nat.not_lt_zero cut)
  | cons elem elems ih =>
    rw [flatMap_cons,writeElem,append_assoc,append_assoc]
    refine starves_bind (consumes_readInt elem.pid) starves_readInt ?_
    refine starves_bind consumes_readChars starves_readChars ?_
    refine starves_bind consumes_readChars starves_readChars ?_
    exact starves_then ih

theorem starves_mpirResult (named : result.mpirId ≠ 0) (counted : result.proctable.length < 2 ^ 31) :
    Starves readMPIRResp (tryWriteMPIRResp pad (.ok result)) := by
  obtain ⟨raw,header,type,mpirId,_,_,_,numPids,_⟩ := consumes_header pad result.mpirId
    result.launcherPid result.jobId result.stepId (BitVec.ofNat 32 result.proctable.length) 0
  refine starves_bind header (starves_header pad _ _ _ _ _ _) ?_
  simp only [type,mpirId,numPids,if_neg named,count_field counted]
  exact starves_then starves_readElems

theorem starves_mpirError : Starves readMPIRResp (tryWriteMPIRResp pad (.error message)) := by
  obtain ⟨raw,header,_,mpirId,_⟩ := consumes_header pad 0 0 0 0 0 (BitVec.ofNat 64 (message.1.length + 1))
  have short := starves_header pad 0 0 0 0 0 (BitVec.ofNat 64 (message.1.length + 1))
  intro s cut inside ended
  rw [tryWriteMPIRResp] at inside ended
  by_cases early : cut < (writeMPIRResp pad 0 0 0 0 0 (BitVec.ofNat 64 (message.1.length + 1))).length
  · rw [take_append_of_le_length (Nat.le_of_lt early)] at ended
    exact starves_then short s cut early ended
  · rw [take_append,take_of_length_le (Nat.le_of_not_lt early)] at ended
    obtain ⟨middle,one,_⟩ := header s _ ended
    rw [← socket_mpirResp]
    exact socket.mpirResp_unnamed (outcome_ok one) mpirId

theorem underflow_ok : ∃ c held s', underflow s = .ok (c,held) s' := by
  unfold underflow
  split <;> exact ⟨_,_,_,rfl⟩

theorem getlineLoop_grows (fuel : Nat) (c : Int) (held : Option UInt8) (str : Bytes) (s : Chunks Cell) :
    ∃ c' held' str' s', getlineLoop fuel c held str s = .ok (c',held',str') s' ∧ (str ≠ [] → str' ≠ []) := by
  induction fuel generalizing c held str s with
  | zero => exact ⟨c,held,str,s,rfl,id⟩
  | succ fuel ih =>
    unfold getlineLoop
    split
    · exact ⟨c,held,str,s,rfl,id⟩
    · obtain ⟨next,held,middle,fetched⟩ := underflow_ok
      obtain ⟨c',held',str',s',ran,kept⟩ := ih next held (str ++ [charOf c]) middle
      refine ⟨c',held',str',s',?_,fun _ => kept (by simp)⟩
      rw [Programs.bind_after fetched]
      exact ran

theorem getline_parts (fetched : underflow s = .ok (c,held) middle)
    (ran : getlineLoop (middle.flatten.length + 1) c held [] middle = .ok (c',held',str) s') :
    getline .fresh s = .ok (str,if c' = EOF then ⟨held',true,str.isEmpty⟩ else ⟨none,false,false⟩) s' := by
  have turns : (remaining : Read Nat) middle = .ok (middle.flatten.length + 1) middle := rfl
  have first : sgetc .fresh s = .ok (c,held) middle := fetched
  rw [getline,if_neg (by decide),Programs.bind_after first]
  dsimp only
  rw [Programs.bind_after turns,Programs.bind_after ran]
  split <;> rfl

theorem receiveString_parts (line : getline stream s = .ok (str,stream') s') :
    receiveString message stream s = if stream'.failed then .error (.text message) s' else .ok (str,stream') s' := by
  rw [receiveString,Programs.bind_after line]
  dsimp only
  split <;> rfl

theorem receiveString_eof (message : String) (fetched : underflow s = .ok (EOF,held) middle) :
    ∃ e s', receiveString message .fresh s = .error e s' := by
  have stop : getlineLoop (middle.flatten.length + 1) EOF held [] middle = .ok (EOF,held,[]) middle := by
    rfl
  exact ⟨_,_,receiveString_parts (getline_parts fetched stop)⟩

theorem receiveString_some (message : String) (fetched : underflow s = .ok (signed b,some b) middle) (zero : b ≠ 0)
    (full : b ≠ 255) : ∃ got s', receiveString message .fresh s = .ok got s' := by
  obtain ⟨c,held,final,next⟩ := underflow_ok
  obtain ⟨c',held',str',s',ran,kept⟩ := getlineLoop_grows middle.flatten.length c held ([] ++ [b]) final
  have whole : getlineLoop (middle.flatten.length + 1) (signed b) (some b) [] middle = .ok (c',held',str') s' := by
    rw [getlineLoop_more zero full,Programs.bind_after next]
    exact ran
  have some : str'.isEmpty = false := by simpa using kept (by simp)
  refine ⟨_,_,(receiveString_parts (getline_parts fetched whole)).trans (if_neg ?_)⟩
  split <;> simp [some]

-- What has come of a text is taken for all of it; only when nothing has come, or
-- the first byte looks like the end, does the stream fail.
theorem receiveString_ended (clean : 0 ∉ text) (ended : s.flatten = plain text) :
    (∃ e s', receiveString message .fresh s = .error e s') ↔ text = [] ∨ text.head? = some 255 := by
  cases text with
  | nil =>
    have fetched : underflow s = .ok (EOF,none) (read 1 s).2 := by simp only [underflow,read_end ended]
    exact ⟨fun _ => .inl rfl,fun _ => receiveString_eof message fetched⟩
  | cons b text =>
    obtain ⟨middle,one,_⟩ := consumes_underflow s (plain text) ended
    by_cases full : b = 255
    · subst full
      exact ⟨fun _ => .inr rfl,fun _ => receiveString_eof message (outcome_ok one)⟩
    · have zero : b ≠ 0 := fun zero => clean (zero ▸ mem_cons_self)
      obtain ⟨got,s',read⟩ := receiveString_some message (outcome_ok one) zero full
      simp [read,full]

end Socket

theorem field_received (inside : offset + size ≤ cut) (whole : offset + size ≤ front.length) :
    field (front.take cut ++ junk) offset size = field front offset size := by
  have taken : (front.take cut ++ junk).take (offset + size) = front.take (offset + size) := by
    rw [take_append_of_le_length (by simp; omega),take_take,Nat.min_eq_left inside]
  simp only [field,take_drop,taken]

theorem channelBytes_cut (memory : List Bytes) (rest : List Cell)
    (inside : cut ≤ (plain front ++ rest).length) (ended : s.flatten = (plain front ++ rest).take cut) :
    ∃ s', channelBytes front.length ⟨s,memory⟩ = .ok (front.take cut ++ (uninitialized memory front.length).drop cut) ⟨s',memory.tail⟩ := by
  obtain ⟨s',_,got⟩ := channelBytes_takes
  have size : (plain front).length = front.length := length_map _
  have received : (s.flatten.take front.length).map Cell.byte = front.take cut := by
    rw [ended,take_take,take_append_of_le_length (by omega),plain,← map_take,← plain,plain_bytes]
    rw [Nat.min_comm,← take_take,take_of_length_le (Nat.le_refl _)]
  have length : s.flatten.length = cut := by rw [ended,length_take,Nat.min_eq_left inside]
  exact ⟨s',by rw [got,received,length]⟩

def Answers (act : RemoteRead α) : Prop := ∀ line, ∃ value line', act line = .ok value line'

theorem answers_bind (first : Answers act) (rest : ∀ value, Answers (more value)) : Answers (act >>= more) := by
  intro line
  obtain ⟨value,middle,one⟩ := first line
  obtain ⟨result,line',two⟩ := rest value middle
  exact ⟨result,line',(Programs.bind_after one).trans two⟩

theorem answers_pure : Answers (pure value) := fun line => ⟨value,line,rfl⟩

theorem answers_bytes : Answers (channel.bytes size) := fun _ => ⟨_,_,rfl⟩

theorem answers_int : Answers channel.int := answers_bind answers_bytes fun _ => answers_pure

theorem answers_charsLoop (fuel : Nat) (str : Bytes) : Answers (channel.charsLoop fuel str) := by
  induction fuel generalizing str with
  | zero => exact answers_pure
  | succ fuel ih =>
    refine answers_bind answers_bytes fun raw => ?_
    split
    · exact answers_pure
    · exact ih _

theorem answers_chars : Answers channel.chars := answers_bind (fun line => ⟨_,line,rfl⟩) fun fuel => answers_charsLoop fuel []

theorem answers_elems : Answers (channel.elems count) := by
  induction count with
  | zero => exact answers_pure
  | succ count ih =>
    refine answers_bind answers_int fun _ => answers_bind answers_chars fun _ => answers_bind answers_chars fun _ => ?_
    exact answers_bind ih fun _ => answers_pure

theorem uninitialized_block (size : block.length = wanted) : uninitialized [block] wanted = block := by
  simp [uninitialized,take_append_of_le_length (Nat.le_of_eq size.symm),take_of_length_le (Nat.le_of_eq size)]

theorem channelBytes_completed (size : block.length = front.length)
    (agree : front.take cut = block.take cut) (inside : cut ≤ (plain front ++ rest).length)
    (ended : s.flatten = (plain front ++ rest).take cut) : ∃ s', channelBytes front.length ⟨s,[block]⟩ = .ok block ⟨s',[]⟩ := by
  obtain ⟨s',got⟩ := channelBytes_cut [block] rest inside ended
  rw [uninitialized_block size,agree,take_append_drop] at got
  exact ⟨s',got⟩

section Clients
variable (pad : Padding)

inductive Reply where
  | pid (daemonPid : Pid)
  | ok (answer : Except CStr Bool)
  | string (answer : Except CStr CStr)
  | mpir (answer : Except CStr MPIRResult)

def Reply.cells : Reply → List Cell
  | .pid daemonPid => writeInt daemonPid
  | .ok answer => tryWriteOKResp pad answer
  | .string answer => tryWriteStringResp pad answer
  | .mpir answer => tryWriteMPIRResp pad answer

def Reply.Valid : Reply → Prop
  | .mpir (.ok result) => result.mpirId ≠ 0 ∧ result.proctable.length < 2 ^ 31
  | _ => True

def Reply.family : Reply → Option Family
  | .pid _ => none
  | .ok _ => some .ok
  | .string _ => some .string
  | .mpir _ => some .mpir

inductive Client where
  | initializeDaemon (forkedPid : Pid)
  | request (asked : Request)
  | startRemoteDaemon
  | remote (call : RemoteCall)

def Client.family : Client → Option Family
  | .initializeDaemon _ => none
  | .request asked => some asked.type.family
  | .startRemoteDaemon => none
  | .remote call => some call.family

def verifyPid (forkedPid : Pid) : Read Unit := do
  if (← readInt) ≠ forkedPid then throw (.text "fe_daemon launch failed")

def Client.throws (memory : List Bytes) (s : Chunks Cell) : Client → Bool
  | .initializeDaemon forkedPid => threw (outcome (verifyPid forkedPid s)).1
  | .request asked => threw (outcome (asked.await s)).1
  | .startRemoteDaemon => threw (outcome (channel.int ⟨s,memory⟩)).1
  | .remote call => threw (outcome (call.await ⟨s,memory⟩)).1

-- Cut off after so many bytes the response ends in an exception, whatever was in
-- memory and however the bytes came in.
def Detects (client : Client) (reply : Reply) (cut : Nat) : Prop :=
  ∀ memory s, s.flatten = (reply.cells pad).take cut → client.throws memory s = true

def Client.Guarded (cut : Nat) : Client → Reply → Prop
  | .initializeDaemon _,_ => True
  | .request _,.string (.ok text) => cut ≤ 16 ∨ text.1.head? = some 255
  | .request _,_ => True
  | .remote _,.string (.error _) => 9 ≤ cut
  | .remote _,.mpir (.error _) => 12 ≤ cut
  | _,_ => False

theorem threw_error {ran : EStateM.Result ε σ α} : threw (outcome ran).1 = true ↔ ∃ e s', ran = .error e s' := by
  cases ran <;> simp [outcome,threw]

theorem threw_ok {ran : EStateM.Result ε σ α} (done : ∃ value s', ran = .ok value s') : threw (outcome ran).1 ≠ true := by
  obtain ⟨value,s',rfl⟩ := done
  simp [outcome,threw]

theorem request_ok {request : Request} (expected : request.type.family = .ok) : Starves request.await (tryWriteOKResp pad answer) := by
  have flags : Starves readOKResp (tryWriteOKResp pad answer) := by cases answer <;> exact starves_then (starves_flags pad 0 _)
  have checked : Starves verifyOKResp (tryWriteOKResp pad answer) := starves_then flags
  cases request with
  | forkExecvpUtil appId runMode launch =>
    cases runMode with
    | asynchronous => exact starves_then checked
    | synchronous => exact starves_then flags
  | checkApp appId => exact starves_then flags
  | forkExecvpApp _ | launchMPIR _ | launchMPIRShim _ _ _ _ | attachMPIR _ _ | readStringMPIR _ _ | registerApp _ => cases expected
  | _ => exact starves_then checked

theorem request_mpir {request : Request} (expected : request.type.family = .mpir)
    (valid : (Reply.mpir answer).Valid) : Starves request.await (tryWriteMPIRResp pad answer) := by
  have read : Starves readMPIRResp (tryWriteMPIRResp pad answer) := by
    cases answer with
    | ok result => exact starves_mpirResult pad valid.1 valid.2
    | error message => exact starves_mpirError pad
  cases request with
  | launchMPIR launch | launchMPIRShim shimBinaryPath temporaryShimBinDir shimmedLauncherPath launch => exact starves_then read
  | attachMPIR launcherPath launcherPid => exact starves_then read
  | _ => cases expected

theorem request_string (text : CStr) (mpirId : Id) (name : CStr) (inside : cut < (tryWriteStringResp pad (.ok text)).length)
    (ended : s.flatten = (tryWriteStringResp pad (.ok text)).take cut) :
    (∃ e s', (Request.readStringMPIR mpirId name).await s = .error e s') ↔ cut ≤ 16 ∨ text.1.head? = some 255 := by
  obtain ⟨type,flag⟩ := flag_fields 2 (by decide) true (pad 7).1
  have header := consumes_flags pad 2 true
  have size : (writeStringResp pad true).length = 16 := by simp [writeStringResp,writeFlagResp,plain,little_length,(pad 7).2]
  rw [tryWriteStringResp] at inside ended
  rw [length_append] at inside
  by_cases early : cut < 16
  · rw [take_append_of_le_length (by omega)] at ended
    have short : Starves (Request.readStringMPIR mpirId name).await (writeStringResp pad true) :=
      starves_then (starves_then (starves_flags pad 2 true))
    exact ⟨fun _ => .inl (Nat.le_of_lt early),fun _ => short s cut (by omega) ended⟩
  · rw [take_append,take_of_length_le (by omega),size,cut_text text (cut - 16) (by omega)] at ended
    obtain ⟨middle,one,left⟩ := header s _ ended
    have clean : 0 ∉ text.1.take (cut - 16) := fun zero => text.2 (mem_of_mem_take zero)
    have response : readStringResp s = (receiveString "failed to read string" .fresh >>= fun got => pure got.1) middle := by
      rw [readStringResp,Programs.bind_after (outcome_ok one),type,flag]
      rfl
    change (∃ e s', (readStringResp >>= fun text => pure (Returned.text text)) s = _) ↔ _
    rw [Programs.map_error,response,Programs.map_error,receiveString_ended clean left]
    simp only [writeString,plain,length_map,length_append,length_singleton] at inside
    by_cases none : cut = 16
    · simp [none]
    · have some : cut - 16 ≠ 0 := by omega
      have more : text.1 ≠ [] := length_pos_iff.mp (by omega)
      have late : ¬ cut ≤ 16 := by omega
      simp [take_eq_nil_iff,List.head?_take,some,more,late]

def flagHeader (respType : Nat) (success : Bool) : Bytes := little 8 respType ++ ([boolByte success] ++ (pad 7).1)

theorem flagHeader_length (respType : Nat) (success : Bool) : (flagHeader pad respType success).length = 16 := by
  simp [flagHeader,little_length,(pad 7).2]

theorem plain_flagHeader :
    writeFlagResp pad respType success = plain (flagHeader pad respType success) := plain_append.symm

theorem remote_ok_returns {call : RemoteCall} (expected : call.family = .ok) {answer : Except CStr Bool}
    (inside : cut < (tryWriteOKResp pad answer).length) : ¬ Detects pad (.remote call) (.ok answer) cut := by
  intro detects
  have sent : tryWriteOKResp pad answer = plain (flagHeader pad 0 (seenOK answer)) ++ [] := by
    cases answer <;> simp [tryWriteOKResp,writeOKResp,plain_flagHeader,seenOK]
  have threw := detects [flagHeader pad 0 (seenOK answer)] [(tryWriteOKResp pad answer).take cut] (by simp [Reply.cells])
  obtain ⟨s',got⟩ := channelBytes_completed (s := [(tryWriteOKResp pad answer).take cut]) rfl rfl
    (Nat.le_of_lt (sent ▸ inside)) (by rw [← sent]; simp)
  rw [flagHeader_length] at got
  have answered : remoteOK ⟨[(tryWriteOKResp pad answer).take cut],[flagHeader pad 0 (seenOK answer)]⟩ = .ok true ⟨s',[]⟩ := by
    rw [remoteOK,Programs.bind_after got,flagHeader,(flag_fields 0 (by decide) (seenOK answer) (pad 7).1).1]
    rfl
  refine threw_ok ?_ threw
  cases call with
  | launchMPIR | readStringMPIR mpirId name => cases expected
  | waitMPIR mpirId | checkApp mpirId | releaseMPIR mpirId | deregisterApp mpirId | stopRemoteDaemon daemonPid =>
    exact ⟨_,_,Programs.bind_after answered⟩

theorem remote_string_returns {mpirId : Id} {name : CStr} {front : Bytes} {rest : List Cell} {answer : Except CStr CStr}
    (sent : tryWriteStringResp pad answer = plain front ++ rest) (size : front.length = 16)
    (agree : front.take cut = (flagHeader pad 2 true).take cut) (inside : cut < (tryWriteStringResp pad answer).length) :
    ¬ Detects pad (.remote (.readStringMPIR mpirId name)) (.string answer) cut := by
  intro detects
  have threw := detects [flagHeader pad 2 true] [(plain front ++ rest).take cut] (by simp [Reply.cells,sent])
  obtain ⟨s',got⟩ := channelBytes_completed (s := [(plain front ++ rest).take cut])
    (by rw [flagHeader_length,size]) agree (Nat.le_of_lt (sent ▸ inside)) (by simp)
  rw [size] at got
  obtain ⟨type,flag⟩ := flag_fields 2 (by decide) true (pad 7).1
  obtain ⟨text,line,read⟩ := answers_chars ⟨s',[]⟩
  refine threw_ok ⟨.text text,line,?_⟩ threw
  rw [RemoteCall.await,Programs.bind_after got,flagHeader,type,flag,if_neg (by decide),if_neg (by decide)]
  exact Programs.bind_after read

theorem headers_agree (early : cut < 12) :
    (mpirHeader pad 0 0 0 0 0 errorMsgLen).take cut = (mpirHeader pad (2 ^ 24) 0 0 0 0 errorMsgLen).take cut := by
  let start := little 8 3 ++ [0,0,0]
  have inside : cut ≤ start.length := by
    simp only [start,length_append,little_length,length_cons,length_nil]
    omega
  change (start ++ (mpirHeader pad 0 0 0 0 0 errorMsgLen).drop 11).take cut =
    (start ++ (mpirHeader pad (2 ^ 24) 0 0 0 0 errorMsgLen).drop 11).take cut
  rw [take_append_of_le_length inside,take_append_of_le_length inside]

theorem remote_mpir_returns (rest : List Cell) (answer : Except CStr MPIRResult)
    (sent : tryWriteMPIRResp pad answer = plain front ++ rest) (size : front.length = 40) (named : mpirId ≠ 0)
    (header : block = mpirHeader pad mpirId launcherPid jobId stepId numPids errorMsgLen)
    (agree : front.take cut = block.take cut) (inside : cut < (tryWriteMPIRResp pad answer).length) :
    ¬ Detects pad (.remote .launchMPIR) (.mpir answer) cut := by
  intro detects
  have threw := detects [block] [(plain front ++ rest).take cut] (by simp [Reply.cells,sent])
  have whole : block.length = 40 := header ▸ header_length pad _ _ _ _ _ _
  obtain ⟨s',got⟩ := channelBytes_completed (s := [(plain front ++ rest).take cut])
    (by rw [whole,size]) agree (Nat.le_of_lt (sent ▸ inside)) (by simp)
  rw [size] at got
  obtain ⟨type,id,_⟩ := header_fields pad _ _ _ _ _ _ header
  obtain ⟨elems,line,read⟩ := answers_elems ⟨s',[]⟩
  have returned : ∃ result line', channel.mpirResp ⟨[(plain front ++ rest).take cut],[block]⟩ = .ok result line' := by
    rw [Transport.mpirResp,show channel.bytes = channelBytes from rfl,Programs.bind_after got]
    simp only [type,id,if_neg named]
    exact ⟨_,_,Programs.bind_after read⟩
  obtain ⟨result,line',ran⟩ := returned
  have answered : RemoteCall.launchMPIR.await ⟨[(plain front ++ rest).take cut],[block]⟩ = .ok (.mpir result) line' :=
    Programs.bind_after ran
  exact threw_ok ⟨_,_,answered⟩ threw

theorem remote_string_detects (inside : cut < (tryWriteStringResp pad (.error message)).length)
    (flagged : 9 ≤ cut) : Detects pad (.remote (.readStringMPIR mpirId name)) (.string (.error message)) cut := by
  intro memory s ended
  have sent : tryWriteStringResp pad (.error message) = plain (flagHeader pad 2 false) ++ [] := by
    simp [tryWriteStringResp,writeStringResp,plain_flagHeader]
  rw [Reply.cells,sent] at ended
  rw [sent] at inside
  obtain ⟨s',got⟩ := channelBytes_cut memory [] (Nat.le_of_lt inside) ended
  have size := flagHeader_length pad 2 false
  rw [size] at got
  obtain ⟨type,flag⟩ := flag_fields 2 (by decide) false (pad 7).1
  refine threw_error.mpr ⟨.text "daemon failed to read string from memory",⟨s',memory.tail⟩,?_⟩
  rw [RemoteCall.await,Programs.bind_after got,field_received (by omega) (by omega),field_received (by omega) (by omega)]
  rw [flagHeader,type]
  rfl

theorem remote_mpir_detects (message : CStr) (inside : cut < (tryWriteMPIRResp pad (.error message)).length)
    (named : 12 ≤ cut) : Detects pad (.remote .launchMPIR) (.mpir (.error message)) cut := by
  intro memory s ended
  have sent : tryWriteMPIRResp pad (.error message) =
      plain (mpirHeader pad 0 0 0 0 0 (BitVec.ofNat 64 (message.1.length + 1))) ++ writeString message := by
    rw [tryWriteMPIRResp,plain_header]
  rw [Reply.cells,sent] at ended
  rw [sent] at inside
  obtain ⟨s',got⟩ := channelBytes_cut memory _ (Nat.le_of_lt inside) ended
  have size := header_length pad 0 0 0 0 0 (BitVec.ofNat 64 (message.1.length + 1))
  obtain ⟨type,id,_⟩ := header_fields pad 0 0 0 0 0 (BitVec.ofNat 64 (message.1.length + 1)) rfl
  rw [size] at got
  obtain ⟨e,line,ran⟩ := channel.mpirResp_unnamed got (by rw [field_received (by omega) (by omega),id])
  exact threw_error.mpr ⟨e,line,Programs.bind_stopped ran⟩

theorem request_exact (expected : some request.type.family = reply.family) (valid : reply.Valid) (short : cut < (reply.cells pad).length) :
    Detects pad (.request request) reply cut ↔ (Client.request request).Guarded cut reply := by
  have starved (hungry : Starves request.await (reply.cells pad)) : Detects pad (.request request) reply cut :=
    fun memory s ended => threw_error.mpr (hungry s cut short ended)
  cases reply with
  | pid daemonPid => cases expected
  | ok answer => exact iff_of_true (starved (request_ok pad (Option.some.inj expected))) trivial
  | mpir answer => exact iff_of_true (starved (request_mpir pad (Option.some.inj expected) valid)) trivial
  | string answer =>
    cases request with
    | readStringMPIR mpirId name =>
      cases answer with
      | ok text =>
        have exact := fun s => request_string (s := s) pad text mpirId name short
        constructor
        · intro detects
          exact (exact [(tryWriteStringResp pad (.ok text)).take cut] (by simp)).mp
            (threw_error.mp (detects [] _ (by simp [Reply.cells])))
        · intro guarded memory s ended
          exact threw_error.mpr ((exact s ended).mpr guarded)
      | error message => exact iff_of_true (starved (starves_then (starves_then (starves_flags pad 2 false)))) trivial
    | _ => cases expected

theorem remote_exact (expected : some call.family = reply.family) (valid : reply.Valid) (short : cut < (reply.cells pad).length) :
    Detects pad (.remote call) reply cut ↔ (Client.remote call).Guarded cut reply := by
  cases reply with
  | pid daemonPid => cases expected
  | ok answer => exact iff_of_false (remote_ok_returns pad (Option.some.inj expected) short) id
  | string answer =>
    cases call with
    | readStringMPIR mpirId name =>
      cases answer with
      | ok text =>
        exact iff_of_false (remote_string_returns pad
          (by rw [← plain_flagHeader]; rfl) (flagHeader_length pad 2 true) rfl short) id
      | error message =>
        constructor
        · intro detects
          by_contra early
          refine remote_string_returns pad
            (by rw [← plain_flagHeader,append_nil]; rfl) (flagHeader_length pad 2 false) ?_ short detects
          have inside : cut ≤ (little 8 2).length := by
            change ¬ 9 ≤ cut at early
            rw [little_length]
            omega
          rw [flagHeader,flagHeader,take_append_of_le_length inside,take_append_of_le_length inside]
        · exact remote_string_detects pad short
    | _ => cases expected
  | mpir answer =>
    cases call with
    | launchMPIR =>
      cases answer with
      | ok result =>
        exact iff_of_false (remote_mpir_returns pad (result.proctable.flatMap writeElem) (.ok result)
          (by rw [tryWriteMPIRResp,plain_header]) (header_length pad _ _ _ _ _ _) valid.1 rfl rfl short) id
      | error message =>
        constructor
        · intro detects
          by_contra early
          exact remote_mpir_returns pad
            (writeString message) (.error message) (by rw [tryWriteMPIRResp,plain_header]) (header_length pad _ _ _ _ _ _)
            (show (2 ^ 24 : Id) ≠ 0 by decide) rfl (headers_agree pad (Nat.lt_of_not_le early)) short detects
        · exact remote_mpir_detects pad message short
    | _ => cases expected

end Clients

end CommonTools.FeDaemon
