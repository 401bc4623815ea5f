import CommonTools.FeDaemon.Wire

namespace CommonTools.FeDaemon
open Numerals Streams

inductive Failure where
  | text (message : String)
  | received (bytes : Bytes)
  deriving DecidableEq

abbrev Read := Reader Failure Cell

def readBytes (size : Nat) : Read Bytes := do
  let cells ← readLoop (.text "read failed: zero bytes read") size
  return cells.map Cell.byte

def readInt : Read (BitVec 32) := do return BitVec.ofNat 32 (unlittle (← readBytes 4))

def readLong : Read (BitVec 64) := do return BitVec.ofNat 64 (unlittle (← readBytes 8))

-- recvmsg for one byte. Without a control message the buffer holds anything.
def recvmsg : Read (Option Stdio) := fun s => .ok ((read 1 s).1.head?.bind Cell.rights) (read 1 s).2

def signed (b : UInt8) : Int := if b.toNat < 128 then b.toNat else b.toNat - 256

def charOf (c : Int) : UInt8 := UInt8.ofNat (c % 256).toNat

def EOF : Int := -1

-- FdBuf::underflow: a byte is fetched into the buffer and returned as a char.
def underflow : Read (Int × Option UInt8) := fun s =>
  match (read 1 s).1 with
  | [] => .ok (EOF,none) (read 1 s).2
  | cell :: _ => .ok (signed cell.byte,some cell.byte) (read 1 s).2

structure IStream where
  held : Option UInt8
  eof : Bool
  failed : Bool
  deriving DecidableEq

def IStream.fresh : IStream := ⟨none,false,false⟩

def sgetc (stream : IStream) : Read (Int × Option UInt8) :=
  match stream.held with
  | some b => pure ((b.toNat : Int),some b)
  | none => underflow

-- The loop of std::getline with delimiter zero. Each turn passes the byte that
-- is held and fetches the next one.
def getlineLoop : Nat → Int → Option UInt8 → Bytes → Read (Int × Option UInt8 × Bytes)
  | 0,c,held,str => pure (c,held,str)
  | fuel + 1,c,held,str =>
    if c = EOF ∨ c = 0 then pure (c,held,str)
    else do
      let (next,held) ← underflow
      getlineLoop fuel next held (str ++ [charOf c])

-- A stream that has seen its end is not read from again.
def getline (stream : IStream) : Read (Bytes × IStream) := do
  if stream.eof || stream.failed then return ([],{stream with failed := true})
  else
    let (c,held) ← sgetc stream
    let fuel ← remaining
    let (c,held,str) ← getlineLoop fuel c held []
    if c = EOF then return (str,⟨held,true,str.isEmpty⟩)
    else return (str,⟨none,false,false⟩)

def receiveString (message : String) (stream : IStream) : Read (Bytes × IStream) := do
  let (str,stream) ← getline stream
  if stream.failed then throw (.text message) else return (str,stream)

def receiveStrings : Nat → IStream → Read (List Bytes × IStream)
  | 0,stream => pure ([],stream)
  | count + 1,stream => do
    let (str,stream) ← receiveString "failed to read string" stream
    let (rest,stream) ← receiveStrings count stream
    return (str :: rest,stream)

structure LaunchData where
  stdio : Option Stdio
  filepath : Bytes
  argvList : List Bytes
  envList : List Bytes
  envBlacklist : List Bytes
  deriving DecidableEq

-- std::getline on a stream of its own; false once its end was seen.
def takeField (delim : UInt8) (stream : Bytes × Bool) : Bytes × Bytes × Bool :=
  if stream.2 then
    match stream.1.dropWhile (· ≠ delim) with
    | [] => (stream.1,[],false)
    | _ :: rest => (stream.1.takeWhile (· ≠ delim),rest,true)
  else ([],stream)

-- cti::split::string<2>. What is left after the second field is read as a word.
def splitTwo (line : Bytes) (delim : UInt8) : Bytes × Bytes :=
  let (first,stream) := takeField delim (line,true)
  let (second,stream) := takeField delim stream
  let word := if stream.2 then (stream.1.dropWhile isSpace).takeWhile (!isSpace ·) else []
  (first,if word = [] then second else second ++ delim :: word)

def blacklistTag : Bytes := ascii "CTIBLACKLIST_"

def popEquals (text : Bytes) : Bytes := if text.getLast? = some 61 then text.dropLast else text

def LaunchData.addEnv (data : LaunchData) (entry : Bytes) : LaunchData :=
  if blacklistTag.isPrefixOf entry then
    {data with envBlacklist := data.envBlacklist ++ [popEquals (splitTwo entry 95).2]}
  else {data with envList := data.envList ++ [entry]}

def parseCount (name : String) (text : Bytes) : Read Nat :=
  match stoi text with
  | .error message => throw (.text message)
  | .ok (value,used) => if used = text.length then pure value.toNat else throw (.text ("failed to parse " ++ name))

def readLaunchData : Read LaunchData := do
  let stdio ← recvmsg
  let (filepath,stream) ← receiveString "failed to read string" .fresh
  let (argcStr,stream) ← receiveString "failed to read string" stream
  let argc ← parseCount "argc" argcStr
  let (argvList,stream) ← receiveStrings argc stream
  let (envcStr,stream) ← receiveString "failed to read string" stream
  let envc ← parseCount "envc" envcStr
  let (entries,_) ← receiveStrings envc stream
  return entries.foldl LaunchData.addEnv ⟨stdio,filepath,argvList,[],[]⟩

structure ShimData where
  shimBinaryPath : Bytes
  temporaryShimBinDir : Bytes
  shimmedLauncherPath : Bytes
  deriving DecidableEq

inductive Command where
  | forkExecvpApp (data : LaunchData)
  | forkExecvpUtil (appId : Id) (runMode : BitVec 32) (data : LaunchData)
  | launchMPIR (data : LaunchData)
  | launchMPIRShim (shim : ShimData) (data : LaunchData)
  | attachMPIR (launcherName : Bytes) (launcherPid : Pid)
  | readStringMPIR (mpirId : Id) (name : Bytes)
  | releaseMPIR (mpirId : Id)
  | waitMPIR (mpirId : Id)
  | terminateMPIR (mpirId : Id)
  | registerApp (appPid : Pid)
  | registerUtil (appId : Id) (utilPid : Pid)
  | registerUtilWithSigkill (appId : Id) (utilPid : Pid)
  | deregisterApp (appId : Id)
  | releaseApp (appId : Id)
  | checkApp (appId : Id)
  | shutdown
  deriving DecidableEq

def readCommand : ReqType → Read Command
  | .ForkExecvpApp => do return .forkExecvpApp (← readLaunchData)
  | .ForkExecvpUtil => do
    let appId ← readInt
    let runMode ← readInt
    return .forkExecvpUtil appId runMode (← readLaunchData)
  | .LaunchMPIR => do return .launchMPIR (← readLaunchData)
  | .LaunchMPIRShim => do
    let (shimBinaryPath,stream) ← receiveString "failed to read shim binary path" .fresh
    let (temporaryShimBinDir,stream) ← receiveString "failed to read temporary shim directory" stream
    let (shimmedLauncherPath,_) ← receiveString "failed to read shimmed launcher path" stream
    return .launchMPIRShim ⟨shimBinaryPath,temporaryShimBinDir,shimmedLauncherPath⟩ (← readLaunchData)
  | .AttachMPIR => do
    let (launcherName,_) ← receiveString "failed to read launcher path" .fresh
    return .attachMPIR launcherName (← readInt)
  | .ReadStringMPIR => do
    let mpirId ← readInt
    let (name,_) ← receiveString "failed to read variable name" .fresh
    return .readStringMPIR mpirId name
  | .ReleaseMPIR => do return .releaseMPIR (← readInt)
  | .WaitMPIR => do return .waitMPIR (← readInt)
  | .TerminateMPIR => do return .terminateMPIR (← readInt)
  | .RegisterApp => do return .registerApp (← readInt)
  | .RegisterUtil => do
    let appId ← readInt
    return .registerUtil appId (← readInt)
  | .RegisterUtilWithSigkill => do
    let appId ← readInt
    return .registerUtilWithSigkill appId (← readInt)
  | .DeregisterApp => do return .deregisterApp (← readInt)
  | .ReleaseApp => do return .releaseApp (← readInt)
  | .CheckApp => do return .checkApp (← readInt)
  | .Shutdown => pure .shutdown

def cstr (bytes : Bytes) : CStr :=
  ⟨bytes.takeWhile (· ≠ 0),fun zero => by simpa using List.mem_takeWhile_imp zero⟩

def Failure.what : Failure → CStr
  | .text message => cstr (ascii message)
  | .received bytes => cstr bytes

-- The operation that belongs to a type of request. handle_Shutdown has none.
abbrev Operations := (type : ReqType) → Command → Except CStr (Answer type.family)

def Operations.run (perform : Operations) : Operations
  | .Shutdown,_ => .ok (true : Bool)
  | type,command => perform type command

def threw : Except ε α → Bool
  | .ok _ => false
  | .error _ => true

-- A turn of the daemon's main loop: what it understood, whether an exception was
-- caught, what it wrote and whether it goes on.
structure Served where
  command : Option Command
  failed : Bool
  response : List Cell
  running : Bool

-- Reading and operation are tried together, so that a request that can not be
-- read is answered like one that can not be carried out.
def handle (pad : Padding) (perform : Operations) (type : ReqType) : Read Served := fun s =>
  let answer (command : Option Command) (outcome : Except CStr (Answer type.family)) : Served :=
    ⟨command,threw outcome,respond pad type.family outcome,decide (type ≠ .Shutdown)⟩
  match readCommand type s with
  | .ok command s' => .ok (answer (some command) (perform.run type command)) s'
  | .error e s' => .ok (answer none (.error e.what)) s'

def serve (pad : Padding) (perform : Operations) : Read Served := fun s =>
  match readLong s with
  | .error _ s' => .ok ⟨none,false,[],false⟩ s'
  | .ok code s' => match ReqType.ofCode code.toNat with
    | none => .ok ⟨none,false,[],true⟩ s'
    | some type => handle pad perform type s'

def field (raw : Bytes) (offset size : Nat) : Nat := unlittle ((raw.drop offset).take size)

def readOKResp : Read Bool := do
  let raw ← readBytes 16
  if field raw 0 8 ≠ 0 then throw (.text "daemon did not send expected OK response type")
  else return decide (field raw 8 1 ≠ 0)

def verifyOKResp : Read Unit := do
  if ← readOKResp then return () else throw (.text "daemon response indicated failure")

def readIDResp : Read Id := do
  let raw ← readBytes 16
  let id : Id := BitVec.ofNat 32 (field raw 8 4)
  if field raw 0 8 ≠ 1 ∨ id.toInt < 0 then throw (.text "failed to read DaemonAppID response") else return id

def readStringResp : Read Bytes := do
  let raw ← readBytes 16
  if field raw 0 8 ≠ 2 then throw (.text "daemon did not send expected String response type")
  else if field raw 8 1 = 0 then throw (.text "daemon failed to read string from memory")
  else
    let (result,_) ← receiveString "failed to read string" .fresh
    return result

structure ElemRead where
  pid : Pid
  hostname : Bytes
  executable : Bytes
  deriving DecidableEq

structure MPIRRead where
  mpirId : Id
  launcherPid : Pid
  jobId : BitVec 32
  stepId : BitVec 32
  proctable : List ElemRead
  deriving DecidableEq

-- readLoop<char> until it brings a zero.
def readCharsLoop : Nat → Bytes → Read Bytes
  | 0,str => pure str
  | fuel + 1,str => do
    let raw ← readBytes 1
    if raw.headD 0 = 0 then return str else readCharsLoop fuel (str ++ raw)

def readChars : Read Bytes := do
  let fuel ← remaining
  readCharsLoop fuel []

def readElems : Nat → Read (List ElemRead)
  | 0 => pure []
  | count + 1 => do
    let pid ← readInt
    let hostname ← readChars
    let executable ← readChars
    let rest ← readElems count
    return ⟨pid,hostname,executable⟩ :: rest

def readErrorMessage (size : Nat) : Read (Option Bytes) :=
  tryCatch (do return some (← readBytes size)) fun _ => pure none

def readMPIRResp : Read MPIRRead := do
  let raw ← readBytes 40
  let mpirId : Id := BitVec.ofNat 32 (field raw 8 4)
  let numPids : BitVec 32 := BitVec.ofNat 32 (field raw 24 4)
  let errorMsgLen := field raw 32 8
  if field raw 0 8 ≠ 3 then throw (.text "daemon did not send expected MPIR response type")
  else if mpirId = 0 then
    if errorMsgLen > 0 then
      match ← readErrorMessage errorMsgLen with
      | some buf => throw (.received (cstr (buf.set (errorMsgLen - 1) 0)).1)
      | none => throw (.text "failed to perform MPIR launch")
    else throw (.text "failed to perform MPIR launch")
  else
    let proctable ← readElems numPids.toInt.toNat
    return ⟨mpirId,BitVec.ofNat 32 (field raw 12 4),BitVec.ofNat 32 (field raw 16 4),BitVec.ofNat 32 (field raw 20 4),
      proctable⟩

inductive Returned where
  | done
  | flag (success : Bool)
  | id (id : Id)
  | text (text : Bytes)
  | mpir (result : MPIRRead)
  deriving DecidableEq

-- The reading half of each FE_daemon::request_ function.
def Request.await : Request → Read Returned
  | .forkExecvpApp _ => do return .id (← readIDResp)
  | .forkExecvpUtil _ .asynchronous _ => do verifyOKResp; return .flag true
  | .forkExecvpUtil _ .synchronous _ => do return .flag (← readOKResp)
  | .launchMPIR _ => do return .mpir (← readMPIRResp)
  | .launchMPIRShim _ _ _ _ => do return .mpir (← readMPIRResp)
  | .attachMPIR _ _ => do return .mpir (← readMPIRResp)
  | .readStringMPIR _ _ => do return .text (← readStringResp)
  | .registerApp _ => do return .id (← readIDResp)
  | .checkApp _ => do return .flag (← readOKResp)
  | _ => do verifyOKResp; return .done

end CommonTools.FeDaemon
