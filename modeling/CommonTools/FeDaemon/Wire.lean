import CommonTools.Library.Numerals
import CommonTools.Library.Streams

namespace CommonTools.FeDaemon
open Numerals Streams

abbrev Bytes := List UInt8

-- A C string: the first zero byte ends it.
abbrev CStr := {text : Bytes // 0 ∉ text}

def ascii (text : String) : Bytes := text.toList.map fun c => UInt8.ofNat c.toNat

abbrev Id := BitVec 32
abbrev Pid := BitVec 32

inductive Descriptor where
  | number (fd : Int)
  | devNull
  deriving DecidableEq

structure Stdio where
  stdin : Descriptor
  stdout : Descriptor
  stderr : Descriptor
  deriving DecidableEq

-- A byte on a socket, with the descriptors that are passed along with it.
structure Cell where
  byte : UInt8
  rights : Option Stdio
  deriving DecidableEq

def plain (bytes : Bytes) : List Cell := bytes.map (⟨·,none⟩)

inductive RunMode where
  | asynchronous
  | synchronous
  deriving DecidableEq

def RunMode.code : RunMode → BitVec 32
  | .asynchronous => 0
  | .synchronous => 1

-- What the front end hands to a launch: StdFd is -1 and CloseFd is -2.
structure Launch where
  file : CStr
  argv : List CStr
  stdin : Int
  stdout : Int
  stderr : Int
  env : Option (List CStr)

def sourceFd (fd standard : Int) : Descriptor :=
  if fd = -1 then .number standard else if fd = -2 then .devNull else .number fd

def Launch.stdio (launch : Launch) : Stdio :=
  ⟨sourceFd launch.stdin 0,sourceFd launch.stdout 1,sourceFd launch.stderr 2⟩

inductive Request where
  | forkExecvpApp (launch : Launch)
  | forkExecvpUtil (appId : Id) (runMode : RunMode) (launch : Launch)
  | launchMPIR (launch : Launch)
  | launchMPIRShim (shimBinaryPath temporaryShimBinDir shimmedLauncherPath : CStr) (launch : Launch)
  | attachMPIR (launcherPath : CStr) (launcherPid : Pid)
  | readStringMPIR (mpirId : Id) (name : CStr)
  | releaseMPIR (mpirId : Id)
  | waitMPIR (mpirId : Id)
  | terminateMPIR (mpirId : Id)
  | registerApp (appPid : Pid)
  | registerUtil (appId : Id) (utilPid : Pid)
  | registerUtilWithSigkill (appId : Id) (utilPid : Pid)
  | deregisterApp (appId : Id)
  | releaseApp (appId : Id)
  | checkApp (appId : Id)
  | shutdown

inductive ReqType where
  | ForkExecvpApp
  | ForkExecvpUtil
  | LaunchMPIR
  | LaunchMPIRShim
  | AttachMPIR
  | ReadStringMPIR
  | ReleaseMPIR
  | WaitMPIR
  | TerminateMPIR
  | RegisterApp
  | RegisterUtil
  | RegisterUtilWithSigkill
  | DeregisterApp
  | ReleaseApp
  | CheckApp
  | Shutdown
  deriving DecidableEq

-- In the order of the enumeration, which is what they are sent as.
def reqTypes : List ReqType :=
  [.ForkExecvpApp,.ForkExecvpUtil,.LaunchMPIR,.LaunchMPIRShim,.AttachMPIR,.ReadStringMPIR,.ReleaseMPIR,.WaitMPIR,
    .TerminateMPIR,.RegisterApp,.RegisterUtil,.RegisterUtilWithSigkill,.DeregisterApp,.ReleaseApp,.CheckApp,.Shutdown]

def ReqType.code (type : ReqType) : Nat := reqTypes.idxOf type

def ReqType.ofCode (code : Nat) : Option ReqType := reqTypes[code]?

def Request.type : Request → ReqType
  | .forkExecvpApp _ => .ForkExecvpApp
  | .forkExecvpUtil _ _ _ => .ForkExecvpUtil
  | .launchMPIR _ => .LaunchMPIR
  | .launchMPIRShim _ _ _ _ => .LaunchMPIRShim
  | .attachMPIR _ _ => .AttachMPIR
  | .readStringMPIR _ _ => .ReadStringMPIR
  | .releaseMPIR _ => .ReleaseMPIR
  | .waitMPIR _ => .WaitMPIR
  | .terminateMPIR _ => .TerminateMPIR
  | .registerApp _ => .RegisterApp
  | .registerUtil _ _ => .RegisterUtil
  | .registerUtilWithSigkill _ _ => .RegisterUtilWithSigkill
  | .deregisterApp _ => .DeregisterApp
  | .releaseApp _ => .ReleaseApp
  | .checkApp _ => .CheckApp
  | .shutdown => .Shutdown

def writeInt (value : BitVec 32) : List Cell := plain (little 4 value.toNat)

def writeString (text : CStr) : List Cell := plain (text.1 ++ [0])

def writeCount (count : Nat) : List Cell := plain (decimal count ++ [0])

-- The control message goes with a single blank.
def writeLaunchData (launch : Launch) : List Cell :=
  [⟨32,some launch.stdio⟩] ++ (writeString launch.file ++ (writeCount launch.argv.length ++
    (launch.argv.flatMap writeString ++ (writeCount (launch.env.getD []).length ++
      (launch.env.getD []).flatMap writeString))))

def Request.payload : Request → List Cell
  | .forkExecvpApp launch => writeLaunchData launch
  | .forkExecvpUtil appId runMode launch => writeInt appId ++ (writeInt runMode.code ++ writeLaunchData launch)
  | .launchMPIR launch => writeLaunchData launch
  | .launchMPIRShim shimBinaryPath temporaryShimBinDir shimmedLauncherPath launch =>
    writeString shimBinaryPath ++ (writeString temporaryShimBinDir ++ (writeString shimmedLauncherPath ++
      writeLaunchData launch))
  | .attachMPIR launcherPath launcherPid => writeString launcherPath ++ writeInt launcherPid
  | .readStringMPIR mpirId name => writeInt mpirId ++ writeString name
  | .releaseMPIR mpirId => writeInt mpirId
  | .waitMPIR mpirId => writeInt mpirId
  | .terminateMPIR mpirId => writeInt mpirId
  | .registerApp appPid => writeInt appPid
  | .registerUtil appId utilPid => writeInt appId ++ writeInt utilPid
  | .registerUtilWithSigkill appId utilPid => writeInt appId ++ writeInt utilPid
  | .deregisterApp appId => writeInt appId
  | .releaseApp appId => writeInt appId
  | .checkApp appId => writeInt appId
  | .shutdown => []

def Request.cells (request : Request) : List Cell := plain (little 8 request.type.code) ++ request.payload

inductive Family where
  | ok
  | id
  | string
  | mpir
  deriving DecidableEq

def ReqType.family : ReqType → Family
  | .ForkExecvpApp => .id
  | .RegisterApp => .id
  | .ReadStringMPIR => .string
  | .LaunchMPIR => .mpir
  | .LaunchMPIRShim => .mpir
  | .AttachMPIR => .mpir
  | _ => .ok

structure ProctableElem where
  pid : Pid
  hostname : CStr
  executable : CStr
  deriving DecidableEq

structure MPIRResult where
  mpirId : Id
  launcherPid : Pid
  jobId : BitVec 32
  stepId : BitVec 32
  proctable : List ProctableElem
  deriving DecidableEq

def Answer : Family → Type
  | .ok => Bool
  | .id => Id
  | .string => CStr
  | .mpir => MPIRResult

-- The bytes that happen to be in the gaps of a struct.
abbrev Padding := (size : Nat) → {bytes : Bytes // bytes.length = size}

section Responding
variable (pad : Padding)

def boolByte (flag : Bool) : UInt8 := if flag then 1 else 0

def writeFlagResp (respType : Nat) (success : Bool) : List Cell :=
  plain (little 8 respType) ++ plain (boolByte success :: (pad 7).1)

def writeOKResp (success : Bool) : List Cell := writeFlagResp pad 0 success

def writeIDResp (id : Id) : List Cell := plain (little 8 1) ++ (writeInt id ++ plain (pad 4).1)

def writeStringResp (success : Bool) : List Cell := writeFlagResp pad 2 success

def writeMPIRResp (mpirId : Id) (launcherPid : Pid) (jobId stepId numPids : BitVec 32) (errorMsgLen : BitVec 64) :
    List Cell :=
  plain (little 8 3) ++ (writeInt mpirId ++ (writeInt launcherPid ++ (writeInt jobId ++ (writeInt stepId ++
    (writeInt numPids ++ (plain (pad 4).1 ++ plain (little 8 errorMsgLen.toNat)))))))

def writeElem (elem : ProctableElem) : List Cell :=
  writeInt elem.pid ++ (writeString elem.hostname ++ writeString elem.executable)

def tryWriteOKResp : Except CStr Bool → List Cell
  | .ok success => writeOKResp pad success
  | .error _ => writeOKResp pad false

def tryWriteIDResp : Except CStr Id → List Cell
  | .ok id => writeIDResp pad id
  | .error _ => writeIDResp pad 0

def tryWriteStringResp : Except CStr CStr → List Cell
  | .ok text => writeStringResp pad true ++ writeString text
  | .error _ => writeStringResp pad false

def tryWriteMPIRResp : Except CStr MPIRResult → List Cell
  | .ok result =>
    writeMPIRResp pad result.mpirId result.launcherPid result.jobId result.stepId
      (BitVec.ofNat 32 result.proctable.length) 0 ++ result.proctable.flatMap writeElem
  | .error message => writeMPIRResp pad 0 0 0 0 0 (BitVec.ofNat 64 (message.1.length + 1)) ++ writeString message

def respond : (family : Family) → Except CStr (Answer family) → List Cell
  | .ok => tryWriteOKResp pad
  | .id => tryWriteIDResp pad
  | .string => tryWriteStringResp pad
  | .mpir => tryWriteMPIRResp pad

end Responding

end CommonTools.FeDaemon
