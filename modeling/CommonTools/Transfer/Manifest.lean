import CommonTools.Library.OrderedMaps

namespace CommonTools.Transfer
open OrderedMaps

abbrev FoldersMap := Grouped String String
abbrev PathMap := OrderedMap String String

-- What the file system, PATH and the dynamic loader answer. A run fixes these
-- as arbitrary functions; `none` stands for the wrapper throwing, except in
-- getFileDependencies, where it is the null array that addLibDeps skips.
structure Host where
  findPath : String → Option String
  findLib : String → Option String
  basename : String → Option String
  realpath : String → Option String
  fileHasPerms : String → Bool
  getFileDependencies : String → Option (List String)

inductive DepsPolicy where
  | Ignore
  | Stage
  deriving DecidableEq

structure Record where
  folder : String
  name : String
  source : String
  deriving DecidableEq

-- What one completed add call took in: the file it names, then the libraries
-- that were found to be dependencies of it.
structure Added where
  own : Record
  deps : List Record
  deriving DecidableEq

def Added.records (added : Added) : List Record := added.own :: added.deps

def overrideFolder (inst : Nat) : String := "lib." ++ toString inst

structure Manifest where
  inst : Nat
  folders : FoldersMap
  sourcePaths : PathMap
  ldLibraryOverrideFolder : String
  isValid : Bool
  overrideNamed : ldLibraryOverrideFolder = "" ∨ ldLibraryOverrideFolder = overrideFolder inst

def Manifest.fresh (inst : Nat) : Manifest := ⟨inst,.empty,.empty,"",true,.inl rfl⟩

def Manifest.empty (m : Manifest) : Bool := m.sourcePaths.entries.isEmpty

def Manifest.finalize (m : Manifest) : Manifest := {m with isValid := false}

-- The folders are kept a folder at a time, the sources by bare name.
def Manifest.record (m : Manifest) (r : Record) : Manifest :=
  {m with folders := m.folders.add r.folder r.name,sourcePaths := m.sourcePaths.insert r.name r.source}

def Manifest.useOverride (m : Manifest) : Manifest :=
  if m.ldLibraryOverrideFolder = "" then
    {m with ldLibraryOverrideFolder := overrideFolder m.inst,overrideNamed := .inr rfl}
  else m

def archivePath (folder name : String) : String := folder ++ "/" ++ name

-- Session::getSourcePath: the empty string when nothing was shipped there.
def getSourcePath (shipped : PathMap) (folderName realName : String) : String :=
  (shipped.find (archivePath folderName realName)).getD ""

def conflictMessage (canonicalPath folder realName shippedSourcePath : String) : String :=
  "conflict: shipping " ++ canonicalPath ++ " to " ++ folder ++ "/" ++ realName ++
    " would conflict with file already shipped from " ++ shippedSourcePath

-- The manifest survives a throw in whatever state it had reached, so the state
-- is carried through both outcomes. `shipped` is the owning session's record.
abbrev ManifestM := EStateM String Manifest

section Adding
variable (host : Host) (shipped : PathMap)

def realpath (path : String) : ManifestM String :=
  match host.realpath path with
  | some canonical => pure canonical
  | none => throw "realpath failed."

def basename (path : String) : ManifestM String :=
  match host.basename path with
  | some name => pure name
  | none => throw ("basename failed on " ++ path)

def findPath (name : String) : ManifestM String :=
  match host.findPath name with
  | some path => pure path
  | none => throw (name ++ ": Could not locate in PATH.")

def findLib (name : String) : ManifestM String :=
  match host.findLib name with
  | some path => pure path
  | none => throw (name ++ ": Could not locate in LD_LIBRARY_PATH or system location.")

def enforceValid : ManifestM Unit := do
  if (← get).isValid then pure () else throw "Attempted to modify previously shipped manifest!"

def checkAndAdd (folder filePath realName : String) : ManifestM Record := do
  let canonicalPath ← realpath host filePath
  let shippedSourcePath := getSourcePath shipped folder realName
  if shippedSourcePath ≠ "" ∧ shippedSourcePath ≠ canonicalPath then
    throw (conflictMessage canonicalPath folder realName shippedSourcePath)
  else
    let taken : Record := ⟨folder,realName,canonicalPath⟩
    modify (·.record taken)
    return taken

-- The part of addLibrary that files the library itself. Any exception of the
-- first attempt, not only a conflict, sends an implicit library to the override.
def placeLibrary (filePath realName : String) (depsPolicy : DepsPolicy) : ManifestM Record :=
  tryCatch (checkAndAdd host shipped "lib" filePath realName) (fun ex =>
    match depsPolicy with
    | .Stage => throw ex
    | .Ignore => do
      modify (·.useOverride)
      checkAndAdd host shipped (← get).ldLibraryOverrideFolder filePath realName)

-- addLibrary with DepsPolicy::Ignore, as addLibDeps calls it.
def addDependency (rawName : String) : ManifestM Record := do
  enforceValid
  let filePath ← findLib host rawName
  let realName ← basename host filePath
  placeLibrary host shipped filePath realName .Ignore

def addLibDeps (filePath : String) : ManifestM (List Record) :=
  match host.getFileDependencies filePath with
  | none => pure []
  | some libArray => libArray.mapM (addDependency host shipped)

def addLibrary (rawName : String) (depsPolicy : DepsPolicy) : ManifestM Added := do
  enforceValid
  let filePath ← findLib host rawName
  let realName ← basename host filePath
  let own ← placeLibrary host shipped filePath realName depsPolicy
  match depsPolicy with
  | .Stage => return ⟨own,← addLibDeps host shipped filePath⟩
  | .Ignore => return ⟨own,[]⟩

def addBinary (rawName : String) (depsPolicy : DepsPolicy) : ManifestM Added := do
  enforceValid
  let filePath ← findPath host rawName
  let realName ← basename host filePath
  if host.fileHasPerms filePath then
    let own ← checkAndAdd host shipped "bin" filePath realName
    match depsPolicy with
    | .Stage => return ⟨own,← addLibDeps host shipped filePath⟩
    | .Ignore => return ⟨own,[]⟩
  else throw "Specified binary does not have execute permissions."

def addLibDir (rawPath : String) : ManifestM Added := do
  enforceValid
  let realPath ← realpath host rawPath
  let realName ← basename host realPath
  return ⟨← checkAndAdd host shipped "lib" realPath realName,[]⟩

def addFile (rawName : String) : ManifestM Added := do
  enforceValid
  let filePath ← findPath host rawName
  let realName ← basename host filePath
  return ⟨← checkAndAdd host shipped "" filePath realName,[]⟩

end Adding

inductive AddCall where
  | binary (rawName : String) (depsPolicy : DepsPolicy)
  | library (rawName : String) (depsPolicy : DepsPolicy)
  | libDir (rawPath : String)
  | file (rawName : String)
  deriving DecidableEq

def AddCall.perform (host : Host) (shipped : PathMap) : AddCall → ManifestM Added
  | .binary rawName policy => addBinary host shipped rawName policy
  | .library rawName policy => addLibrary host shipped rawName policy
  | .libDir rawPath => addLibDir host shipped rawPath
  | .file rawName => addFile host shipped rawName

end CommonTools.Transfer
