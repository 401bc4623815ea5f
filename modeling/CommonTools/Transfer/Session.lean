import CommonTools.Transfer.Manifest

namespace CommonTools.Transfer
open OrderedMaps

structure App where
  jobId : String
  toolPath : String
  attribsPath : String
  extraBinaries : List String
  extraLibraries : List String
  extraLibDirs : List String
  extraFiles : List String
  defaultEnvVars : List String
  debug : Bool

structure Session where
  manifests : List Nat
  addRequirements : Bool
  manifestCnt : Nat
  seqNum : Nat
  folders : FoldersMap
  sourcePaths : PathMap
  stageName : String
  stagePath : String
  wlmType : String
  ldLibraryPath : String

def Session.start (app : App) (stageName wlmType : String) : Session :=
  { manifests := [],addRequirements := true,manifestCnt := 0,seqNum := 0,folders := .empty,sourcePaths := .empty
    stageName := stageName,stagePath := app.toolPath ++ "/" ++ stageName,wlmType := wlmType
    ldLibraryPath := app.toolPath ++ "/" ++ stageName ++ "/lib" }

inductive Entry where
  | dir (path : String)
  | link (path source : String)
  | file (path source : String)
  deriving DecidableEq

inductive ArchiveOp where
  | create (path : String)
  | add (entry : Entry)
  | finalize
  deriving DecidableEq

-- How the outside world answers one shipment: each operation of the archive
-- library and of the workload manager either works or throws the given text.
structure Delivery where
  deduplicate : Option String
  checkFilesExist : OrderedMap String Unit → Option (List String)
  archive : ArchiveOp → Option String
  shipPackage : Option String
  startDaemon : Option String

inductive DaemonArg where
  | apID (value : String)
  | toolPath (value : String)
  | pmiAttribsPath (value : String)
  | ldLibraryPath (value : String)
  | wlmEnum (value : String)
  | manifestName (value : String)
  | binary (value : String)
  | directory (value : String)
  | instSeqNum (value : Nat)
  | clean
  | debug
  | envVariable (value : String)
  | plain (value : String)
  deriving DecidableEq

-- OutgoingArgv renders a parameter in the long form.
def DaemonArg.text : DaemonArg → String
  | .apID value => "--apid=" ++ value
  | .toolPath value => "--path=" ++ value
  | .pmiAttribsPath value => "--apath=" ++ value
  | .ldLibraryPath value => "--ldlibpath=" ++ value
  | .wlmEnum value => "--wlm=" ++ value
  | .manifestName value => "--manifest=" ++ value
  | .binary value => "--binary=" ++ value
  | .directory value => "--directory=" ++ value
  | .instSeqNum value => "--inst=" ++ toString value
  | .clean => "--clean"
  | .debug => "--debug"
  | .envVariable value => "--env=" ++ value
  | .plain value => value

structure Package where
  manifest : Nat
  name : String
  entries : List Entry
  deriving DecidableEq

structure Start where
  args : List DaemonArg
  synchronous : Bool
  deriving DecidableEq

-- A session with every manifest made in it. A handle is a position in
-- `manifests`; what the application was handed is kept in order of delivery.
-- `ledger` lists the add calls that returned. No function reads the ledger.
structure World where
  session : Session
  manifests : List Manifest
  ledger : List (Nat × Added)
  packages : List Package
  starts : List Start

def World.start (app : App) (stageName wlmType : String) : World :=
  ⟨Session.start app stageName wlmType,[],[],[],[]⟩

abbrev SessionM := EStateM String Session
abbrev WorldM := EStateM String World

def isSameFile (filePath candidatePath : String) : Bool := decide (filePath = candidatePath)

section Merging
variable (host : Host)

def mergeFile (newPaths : PathMap) (toRemove : List (String × String)) (pair : String × String) :
    SessionM (List (String × String)) := do
  modify fun s => {s with folders := s.folders.add pair.1 pair.2}
  let fileArchivePath := archivePath pair.1 pair.2
  match (← get).sourcePaths.find fileArchivePath,newPaths.find pair.2 with
  | _,none => throw "map::at"
  | some shippedFrom,some fileSourcePath =>
    if isSameFile shippedFrom fileSourcePath then return toRemove ++ [pair]
    else throw ("tried to merge transfered file " ++ fileArchivePath ++ " but it was already in the session!")
  | none,some fileSourcePath =>
    match host.realpath fileSourcePath with
    | none => throw "realpath failed."
    | some realFilePath =>
      modify fun s => {s with sourcePaths := s.sourcePaths.insert fileArchivePath realFilePath}
      return toRemove

def mergeTransfered (newFolders : FoldersMap) (newPaths : PathMap) : SessionM (List (String × String)) :=
  newFolders.pairs.foldlM (mergeFile host newPaths) []

end Merging

def onSession (act : SessionM α) : WorldM α := fun w =>
  match act w.session with
  | .ok value s => .ok value {w with session := s}
  | .error message s => .error message {w with session := s}

def verifyOwnership (mani : Nat) : WorldM Unit := do
  if mani ∈ (← get).session.manifests then pure () else throw "manifest not owned by session"

def manifestAt (mani : Nat) : WorldM Manifest := do
  match (← get).manifests[mani]? with
  | some m => pure m
  | none => throw "manifest not owned by session"

def setManifest (mani : Nat) (m : Manifest) : WorldM Unit :=
  modify fun w => {w with manifests := w.manifests.set mani m}

-- An add call on a manifest reads its session's record and leaves the session as it is.
def addTo (host : Host) (mani : Nat) (call : AddCall) : WorldM Unit := fun w =>
  match w.manifests[mani]? with
  | none => .error "manifest not owned by session" w
  | some m => match call.perform host w.session.sourcePaths m with
    | .ok added m' => .ok () {w with manifests := w.manifests.set mani m',ledger := w.ledger ++ [(mani,added)]}
    | .error message m' => .error message {w with manifests := w.manifests.set mani m'}

def createManifest : WorldM Nat := do
  let w ← get
  let inst := w.session.manifestCnt + 1
  let handle := w.manifests.length
  set {w with session := {w.session with manifestCnt := inst,manifests := handle :: w.session.manifests},
              manifests := w.manifests ++ [Manifest.fresh inst]}
  return handle

def removeManifest (mani : Nat) : WorldM Unit := do
  verifyOwnership mani
  setManifest mani (← manifestAt mani).finalize
  modify fun w => {w with session := {w.session with manifests := w.session.manifests.erase mani}}

-- The baseline files of the application, added to the first manifest shipped.
def requirements (app : App) : List AddCall :=
  app.extraBinaries.map (AddCall.binary · .Stage) ++ app.extraLibraries.map (AddCall.library · .Stage) ++
    app.extraLibDirs.map AddCall.libDir ++ app.extraFiles.map AddCall.file

def Manifest.discard (m : Manifest) (pair : String × String) : Manifest :=
  {m with folders := m.folders.drop pair.1 pair.2,sourcePaths := m.sourcePaths.erase pair.2}

def destPath (stageName folder name : String) : String := stageName ++ "/" ++ folder ++ "/" ++ name

-- A name whose source is gone is passed over without a word.
def fileEntries (stageName : String) (m : Manifest) (duplicates : List String) : List Entry :=
  m.folders.pairs.filterMap fun pair =>
    (m.sourcePaths.find pair.2).map fun sourcePath =>
      if sourcePath ∈ duplicates then .link (destPath stageName pair.1 pair.2) sourcePath
      else .file (destPath stageName pair.1 pair.2) sourcePath

def dirEntries (stageName : String) : List Entry :=
  [.dir stageName,.dir (stageName ++ "/bin"),.dir (stageName ++ "/lib"),.dir (stageName ++ "/tmp")]

def sourceSet (m : Manifest) : OrderedMap String Unit :=
  m.sourcePaths.entries.foldl (fun paths row => paths.insert row.2 ()) .empty

-- Deduplication is a convenience: when the check throws nothing is linked.
def duplicateSourcePaths (delivery : Delivery) (m : Manifest) : List String :=
  if delivery.deduplicate = some "0" then []
  else (delivery.checkFilesExist (sourceSet m)).getD []

def archiveOp (delivery : Delivery) (op : ArchiveOp) : WorldM Unit :=
  match delivery.archive op with
  | none => pure ()
  | some message => throw message

def succeed (outcome : Option String) : WorldM Unit :=
  match outcome with
  | none => pure ()
  | some message => throw message

section Shipping
variable (host : Host) (app : App)

def addRequired (mani : Nat) : WorldM Unit := do
  if (← get).session.addRequirements then
    (requirements app).forM (addTo host mani)
    modify fun w => {w with session := {w.session with addRequirements := false}}

def extendLibraryPath (libPath : String) : WorldM Unit := do
  if libPath ≠ "" then
    modify fun w => {w with session := {w.session with
      ldLibraryPath := w.session.stagePath ++ "/" ++ libPath ++ ":" ++ w.session.ldLibraryPath}}

-- From taking the manifest away from the client to the files that are left to ship.
def mergeManifest (mani : Nat) : WorldM Manifest := do
  removeManifest mani
  let m ← manifestAt mani
  let toRemove ← onSession (mergeTransfered host m.folders m.sourcePaths)
  let kept := toRemove.foldl Manifest.discard m
  setManifest mani kept
  extendLibraryPath m.ldLibraryOverrideFolder
  return kept

def packArchive (delivery : Delivery) (archiveName : String) (entries : List Entry) : WorldM Unit := do
  archiveOp delivery (.create archiveName)
  entries.forM fun entry => archiveOp delivery (.add entry)
  archiveOp delivery .finalize
  succeed delivery.shipPackage

def shipManifest (delivery : Delivery) (mani : Nat) : WorldM String := do
  addRequired host app mani
  let kept ← mergeManifest host mani
  let stageName := (← get).session.stageName
  let archiveName := stageName ++ toString kept.inst ++ ".tar"
  let entries := dirEntries stageName ++ fileEntries stageName kept (duplicateSourcePaths delivery kept)
  packArchive delivery archiveName entries
  modify fun w => {w with packages := w.packages ++ [⟨mani,archiveName,entries⟩]}
  return archiveName

def startDaemon (delivery : Delivery) (args : List DaemonArg) (synchronous : Bool) : WorldM Unit := do
  succeed delivery.startDaemon
  modify fun w => {w with starts := w.starts ++ [⟨args,synchronous⟩],
                          session := {w.session with seqNum := w.session.seqNum + 1}}

def commonArgs (s : Session) : List DaemonArg :=
  [DaemonArg.directory s.stageName,DaemonArg.instSeqNum s.seqNum] ++ (if app.debug then [DaemonArg.debug] else []) ++
    app.defaultEnvVars.map DaemonArg.envVariable

def sendArgs (s : Session) (archiveName : String) : List DaemonArg :=
  [DaemonArg.apID app.jobId,DaemonArg.toolPath app.toolPath,DaemonArg.wlmEnum s.wlmType,DaemonArg.manifestName archiveName] ++ commonArgs app s

def sendManifest (delivery : Delivery) (mani : Nat) : WorldM Unit := do
  verifyOwnership mani
  if (← manifestAt mani).empty then removeManifest mani
  else
    let archiveName ← shipManifest host app delivery mani
    startDaemon delivery (sendArgs app (← get).session archiveName) true

-- enforceValidEnvStrings: every entry needs a name before its first '='.
def validEnvString (var : String) : Bool := var.toList.contains '=' && var.toList.head? != some '='

def execArgs (s : Session) (archiveName binaryName : String) (daemonArgs envVars : Option (List String)) :
    List DaemonArg :=
  [DaemonArg.apID app.jobId,DaemonArg.toolPath app.toolPath] ++
    (if app.attribsPath ≠ "" then [DaemonArg.pmiAttribsPath app.attribsPath] else []) ++
    (if s.ldLibraryPath ≠ "" then [DaemonArg.ldLibraryPath s.ldLibraryPath] else []) ++ [DaemonArg.wlmEnum s.wlmType] ++
    (if archiveName ≠ "" then [DaemonArg.manifestName archiveName] else []) ++ [DaemonArg.binary binaryName] ++ commonArgs app s ++
    (envVars.getD []).map DaemonArg.envVariable ++
    (match daemonArgs with | none => [] | some args => DaemonArg.plain "--" :: args.map DaemonArg.plain)

def checkEnvStrings (envVars : Option (List String)) : WorldM Unit :=
  match (envVars.getD []).find? (fun var => !validEnvString var) with
  | none => pure ()
  | some var => throw ("Bad environment variable string: \"" ++ var ++ "\"")

def locate (answer : Option String) (message : String) : WorldM String :=
  match answer with
  | some value => pure value
  | none => throw message

def execManifest (delivery : Delivery) (mani : Nat) (daemon : String) (daemonArgs envVars : Option (List String)) :
    WorldM Unit := do
  verifyOwnership mani
  addTo host mani (.binary daemon .Stage)
  let archiveName ← if (← manifestAt mani).empty then do removeManifest mani; pure ""
    else shipManifest host app delivery mani
  let filePath ← locate (host.findPath daemon) (daemon ++ ": Could not locate in PATH.")
  let binaryName ← locate (host.basename filePath) ("basename failed on " ++ filePath)
  checkEnvStrings envVars
  startDaemon delivery (execArgs app (← get).session archiveName binaryName daemonArgs envVars) false

end Shipping

section Ending
variable (app : App) (s : Session)

-- Session::finalize: the daemon it starts, if anything was ever started.
def finalizeArgs : Option (List DaemonArg) :=
  if s.seqNum = 0 then none
  else some ([DaemonArg.apID app.jobId,DaemonArg.toolPath app.toolPath] ++
    (if app.attribsPath ≠ "" then [DaemonArg.pmiAttribsPath app.attribsPath] else []) ++
    [DaemonArg.wlmEnum s.wlmType,DaemonArg.directory s.stageName,DaemonArg.instSeqNum s.seqNum,DaemonArg.clean] ++
    (if app.debug then [DaemonArg.debug] else []) ++ app.defaultEnvVars.map DaemonArg.envVariable)

def getSessionLockFiles : List String :=
  (List.range s.seqNum).map fun i => app.toolPath ++ "/.lock_" ++ s.stageName ++ "_" ++ toString i

end Ending

inductive Call where
  | createManifest
  | add (mani : Nat) (call : AddCall)
  | sendManifest (delivery : Delivery) (mani : Nat)
  | execManifest (delivery : Delivery) (mani : Nat) (daemon : String) (daemonArgs envVars : Option (List String))

def Call.perform (host : Host) (app : App) : Call → WorldM Unit
  | .createManifest => do let _ ← Transfer.createManifest
  | .add mani call => addTo host mani call
  | .sendManifest delivery mani => Transfer.sendManifest host app delivery mani
  | .execManifest delivery mani daemon daemonArgs envVars => Transfer.execManifest host app delivery mani daemon daemonArgs envVars

end CommonTools.Transfer
