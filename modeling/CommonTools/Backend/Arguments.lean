import CommonTools.Library.Environments
import CommonTools.Library.Getopt
import CommonTools.Backend.Daemon
import CommonTools.Backend.Stack

namespace CommonTools.Backend
open Transfer Environments Texts

inductive Flag where
  | apid
  | binary
  | clean
  | directory
  | env
  | file
  | inst
  | manifest
  | path
  | apath
  | ldlibpath
  | wlm
  | help
  | debug
  deriving DecidableEq

def longOpts : List (Getopt.Long Flag) :=
  [⟨"apid",.value,.apid⟩,⟨"binary",.value,.binary⟩,⟨"clean",.nothing,.clean⟩,⟨"directory",.value,.directory⟩,
    ⟨"env",.value,.env⟩,⟨"file",.value,.file⟩,⟨"inst",.value,.inst⟩,⟨"manifest",.value,.manifest⟩,⟨"path",.value,.path⟩,
    ⟨"apath",.value,.apath⟩,⟨"ldlibpath",.value,.ldlibpath⟩,⟨"wlm",.value,.wlm⟩,⟨"help",.nothing,.help⟩,
    ⟨"debug",.nothing,.debug⟩]

-- "a:b:cd:e:i:m:p:t:l:w:h". The file check has its long form only.
def shortOpts : Char → Option (Getopt.Takes × Flag)
  | 'a' => some (.value,.apid)
  | 'b' => some (.value,.binary)
  | 'c' => some (.nothing,.clean)
  | 'd' => some (.value,.directory)
  | 'e' => some (.value,.env)
  | 'i' => some (.value,.inst)
  | 'm' => some (.value,.manifest)
  | 'p' => some (.value,.path)
  | 't' => some (.value,.apath)
  | 'l' => some (.value,.ldlibpath)
  | 'w' => some (.value,.wlm)
  | 'h' => some (.nothing,.help)
  | _ => none

inductive WlmType where
  | none
  | mock
  | slurm
  | ssh
  | alps
  | pals
  | flux
  | localhost
  deriving DecidableEq

def WlmType.number : WlmType → Nat
  | .none => 0
  | .mock => 1
  | .slurm => 2
  | .ssh => 3
  | .alps => 4
  | .pals => 5
  | .flux => 6
  | .localhost => 7

def WlmType.all : List WlmType := [.none,.mock,.slurm,.ssh,.alps,.pals,.flux,.localhost]

def WlmType.ofNumber (n : Int) : Option WlmType := all.find? fun wlm => decide ((wlm.number : Int) = n)

def WlmType.valid : WlmType → Bool
  | .none | .mock => false
  | _ => true

-- What the node answers while main runs. The last six speak about paths: the tool
-- directory can be entered, a tarball is there and unpacks, the stage directory is
-- there, the pid file can be appended to, _cti_adjustPaths works, the binary is there.
structure Site where
  grown : Nat → Realloc
  block : Nat
  inherited : Environment String String
  built : WlmType → Bool
  wlmInit : WlmType → Bool
  getcwd : Option String
  entered : String → Bool
  extracted : String → Bool
  isDirectory : String → Bool
  recorded : String → Bool
  adjusted : String → Bool
  isRegular : String → Bool

-- A way for main to end before the tool: it returns, or it has touched memory that
-- was freed and nothing can be said about it.
inductive Halt where
  | returned (code : Nat)
  | undefined
  deriving DecidableEq

structure Settings where
  apid : Option String
  toolPath : Option String
  attribsPath : Option String
  ldLibPath : Option String
  wlmArg : Int
  binary : Option String
  directory : Option String
  manifest : Option String
  inst : Int
  cleanup : Bool
  debug : Bool
  fileCheckMode : Bool
  envArgs : Option (Stack String)
  deriving DecidableEq

def Settings.initial : Settings := ⟨none,none,none,none,0,none,none,none,1,false,false,false,none⟩

def faulted : Fault → Halt
  | .refused => .returned 1
  | .stale => .undefined

section Parsing
variable (site : Site)

def Settings.pushEnv (settings : Settings) (value : String) : Except Halt Settings :=
  match (settings.envArgs.getD (.new site.block)).push site.grown value with
  | .ok stack => .ok {settings with envArgs := some stack}
  | .error fault => .error (faulted fault)

def Settings.take (settings : Settings) : Getopt.Answer Flag → Except Halt Settings
  | .unknown => .error (.returned 1)
  | .option flag arg =>
    let optarg := arg.getD ""
    match flag with
    | .apid => .ok {settings with apid := some (stripSpaces optarg)}
    | .binary => .ok {settings with binary := some (stripSpaces optarg)}
    | .clean => .ok {settings with cleanup := true}
    | .directory => .ok {settings with directory := some (stripSpaces optarg)}
    | .env => settings.pushEnv site (stripSpaces optarg)
    | .file => .ok {settings with fileCheckMode := true}
    | .inst => .ok {settings with inst := atoi optarg}
    | .manifest => .ok {settings with manifest := some (stripSpaces optarg)}
    | .path => .ok {settings with toolPath := some (stripSpaces optarg)}
    | .apath => .ok {settings with attribsPath := some (stripSpaces optarg)}
    | .ldlibpath => .ok {settings with ldLibPath := some (stripSpaces optarg)}
    | .wlm => .ok {settings with wlmArg := atoi optarg}
    | .help => .error (.returned 0)
    | .debug => .ok {settings with debug := true}

def parse (argv : List String) : Except Halt (Settings × List String) :=
  if argv.length < 2 then .error (.returned 1)
  else
    let parsed := Getopt.scan longOpts shortOpts none argv.tail
    (parsed.answers.foldlM (Settings.take site) Settings.initial).map fun settings => (settings,parsed.rest)

end Parsing

def strsep (text : String) : String × Option String :=
  let rest := text.toList.dropWhile (· ≠ '=')
  (String.ofList (text.toList.takeWhile (· ≠ '=')),
    match rest with
    | [] => none
    | _ :: value => some (String.ofList value))

def setVariable (env : Environment String String) (text : String) : Except Halt (Environment String String) :=
  match strsep text with
  | (name,some value) => if name = "" then .error (.returned 1) else .ok (env.set name value)
  | (_,none) => .error (.returned 1)

def setPopped : Nat → Stack String → Environment String String → Except Halt (Environment String String)
  | 0,_,env => .ok env
  | height + 1,stack,env =>
    match stack.pop with
    | .error fault => .error (faulted fault)
    | .ok (none,_) => .ok env
    | .ok (some text,stack) => do setPopped height stack (← setVariable env text)

def require (holds : Bool) : Except Halt Unit := if holds then .ok () else .error (.returned 1)

namespace Settings
variable (site : Site) (settings : Settings)

def userEnvironment : Except Halt (Environment String String) :=
  match settings.envArgs with
  | none => .ok site.inherited
  | some stack => setPopped stack.pushed.length stack site.inherited

-- The protocol object the argument selects; three of them are compiled in only
-- where the workload manager was found.
def wlmProto : WlmType :=
  match WlmType.ofNumber settings.wlmArg with
  | some .slurm => .slurm
  | some .ssh => .ssh
  | some .localhost => .localhost
  | some .alps => if site.built .alps then .alps else .none
  | some .pals => if site.built .pals then .pals else .none
  | some .flux => if site.built .flux then .flux else .none
  | _ => .none

def wlmValid : Bool := ((WlmType.ofNumber settings.wlmArg).map WlmType.valid).getD false

def tool : String := settings.toolPath.getD ""

def root : String :=
  match settings.directory with
  | some directory => settings.tool ++ "/" ++ directory
  | none => String.ofList (untarred (settings.tool ++ "/" ++ settings.manifest.getD "").toList)

def unpack : Except Halt Unit :=
  match settings.manifest with
  | none => .ok ()
  | some manifest => require (site.extracted (settings.tool ++ "/" ++ manifest))

def staged : Except Halt Unit := do
  require settings.wlmValid
  require settings.apid.isSome
  require (settings.directory.isSome || settings.manifest.isSome)
  require settings.toolPath.isSome
  require (settings.wlmProto site != .none && site.wlmInit (settings.wlmProto site))
  require (site.entered settings.tool)
  settings.unpack site
  require (site.isDirectory settings.root)

def adjustPaths (env : Environment String String) : Environment String String :=
  let path := match env "PATH" with
    | none => settings.root ++ "/bin"
    | some path => settings.root ++ "/bin:" ++ path
  (env.set "PATH" path).set "LD_LIBRARY_PATH" (settings.ldLibPath.getD (settings.root ++ "/lib"))

-- The variables main sets itself, after those it was asked to set.
def ownEnvironment (env : Environment String String) : Environment String String :=
  let env := env.setIf "CTI_OLD_CWD" site.getcwd
  let env := env.set "CTI_APID" (settings.apid.getD "")
  let env := env.set "CTI_WLM" (toString (settings.wlmProto site).number)
  let env := env.set "CTI_IAMBACKEND" "1"
  let env := env.set "CTI_ROOT_DIR" settings.root
  let env := env.setIf "CTI_OLD_TMPDIR" (env "TMPDIR")
  let env := env.set "TMPDIR" (settings.root ++ "/tmp")
  let env := env.set "CTI_BIN_DIR" (settings.root ++ "/bin")
  let env := env.set "CTI_LIB_DIR" (settings.root ++ "/lib")
  let env := env.set "CTI_FILE_DIR" settings.root
  let env := env.set "CTI_TOP_LEVEL" settings.tool
  settings.adjustPaths (env.setIf "CTI_PMI_ATTRIBS_DIR" settings.attribsPath)

def ownVariables : List String :=
  ["CTI_OLD_CWD","CTI_APID","CTI_WLM","CTI_IAMBACKEND","CTI_ROOT_DIR","CTI_OLD_TMPDIR","TMPDIR","CTI_BIN_DIR",
    "CTI_LIB_DIR","CTI_FILE_DIR","CTI_TOP_LEVEL","CTI_PMI_ATTRIBS_DIR","PATH","LD_LIBRARY_PATH"]

def binaryPath (binary : String) : String := settings.root ++ "/bin/" ++ binary

end Settings

structure Tool where
  path : String
  argv : List String
  env : Environment String String

section Running
variable (site : Site)

-- The clean-up run is the Cleaner of a node. Waiting for the lock files of earlier
-- daemons is the waiting phase of a Daemon: here it has ended.
def execTool (settings : Settings) (rest : List String) (env : Environment String String) : Except Halt Tool := do
  if settings.cleanup then .error (.returned 0)
  else
    require (site.recorded (settings.root ++ "/.cti_pids"))
    require (site.adjusted settings.root)
    match settings.binary with
    | none => .error (.returned 0)
    | some binary =>
      require (site.isRegular (settings.binaryPath binary))
      -- argv[optind - 1] is overwritten and becomes argv[0].
      .ok ⟨settings.binaryPath binary,settings.binaryPath binary :: rest,settings.ownEnvironment site env⟩

def main (argv : List String) : Except Halt Tool := do
  let (settings,rest) ← parse site argv
  if settings.fileCheckMode then .error (.returned 0)
  else
    let env ← settings.userEnvironment site
    settings.staged site
    execTool site settings rest env

end Running

end CommonTools.Backend
