import CommonTools.Backend.Arguments

namespace CommonTools.Backend
open Transfer Environments Texts List Environment Getopt Stack
open DaemonArg hiding binary text
open Settings hiding binary

-- What getopt_long makes of an argument the front end writes.
def answer : DaemonArg → Option (Getopt.Answer Flag)
  | .apID value => some (.option .apid (some value))
  | .toolPath value => some (.option .path (some value))
  | .pmiAttribsPath value => some (.option .apath (some value))
  | .ldLibraryPath value => some (.option .ldlibpath (some value))
  | .wlmEnum value => some (.option .wlm (some value))
  | .manifestName value => some (.option .manifest (some value))
  | .binary value => some (.option .binary (some value))
  | .directory value => some (.option .directory (some value))
  | .instSeqNum value => some (.option .inst (some (toString value)))
  | .clean => some (.option .clean none)
  | .debug => some (.option .debug none)
  | .envVariable value => some (.option .env (some value))
  | .plain _ => none

theorem element_text (option : answer arg = some given) : element longOpts shortOpts arg.text = .options [given] none := by
  cases arg with
  | apID value => cases option; exact element_value "apid" rfl (by decide) value
  | toolPath value => cases option; exact element_value "path" rfl (by decide) value
  | pmiAttribsPath value => cases option; exact element_value "apath" rfl (by decide) value
  | ldLibraryPath value => cases option; exact element_value "ldlibpath" rfl (by decide) value
  | wlmEnum value => cases option; exact element_value "wlm" rfl (by decide) value
  | manifestName value => cases option; exact element_value "manifest" rfl (by decide) value
  | binary value => cases option; exact element_value "binary" rfl (by decide) value
  | directory value => cases option; exact element_value "directory" rfl (by decide) value
  | instSeqNum value => cases option; exact element_value "inst" rfl (by decide) _
  | clean => cases option; exact element_flag "clean" rfl (by decide) (by decide)
  | debug => cases option; exact element_flag "debug" rfl (by decide) (by decide)
  | envVariable value => cases option; exact element_value "env" rfl (by decide) value
  | plain value => cases option

def scanned (texts : List String) : Getopt.Parsed Flag := Getopt.scan longOpts shortOpts none texts

theorem scanned_options (args : List DaemonArg) (options : ∀ arg ∈ args, (answer arg).isSome) (tail : List String) :
    scanned (args.map DaemonArg.text ++ tail) = ⟨args.filterMap answer ++ (scanned tail).answers,(scanned tail).rest⟩ := by
  induction args with
  | nil => rfl
  | cons arg args ih =>
    obtain ⟨given,option⟩ := Option.isSome_iff_exists.mp (options arg mem_cons_self)
    have rest := ih fun arg inside => options arg (mem_cons_of_mem _ inside)
    unfold scanned at rest ⊢
    rw [map_cons,cons_append,scan_options (element_text option),rest,filterMap_cons_some option]
    rfl

def Settings.options (settings : Settings) : Options :=
  ⟨settings.apid,settings.toolPath,settings.directory,settings.manifest,settings.binary,settings.inst.toNat,
    settings.cleanup⟩

theorem take_options {settings settings' : Settings} (option : answer arg = some given) (taken : settings.take site given = .ok settings') :
    settings'.options = settings.options.take arg := by
  cases arg with
  | plain value => cases option
  | envVariable value =>
    cases option
    have pushed : settings.pushEnv site (stripSpaces value) = .ok settings' := taken
    unfold pushEnv at pushed
    split at pushed
    · cases pushed; rfl
    · cases pushed
  | instSeqNum value =>
    cases option
    cases taken
    have number : (atoi (toString value)).toNat = value := by rw [atoi_number,Int.toNat_natCast]
    simp only [options,Options.take,Option.getD_some,number]
  | _ => cases option; cases taken; rfl

theorem takes_options {args : List DaemonArg} (options : ∀ arg ∈ args, (answer arg).isSome)
    {settings settings' : Settings} (taken : (args.filterMap answer).foldlM (take site) settings = .ok settings') :
    settings'.options = settings.options.read args := by
  induction args generalizing settings with
  | nil => cases taken; rfl
  | cons arg args ih =>
    obtain ⟨given,option⟩ := Option.isSome_iff_exists.mp (options arg mem_cons_self)
    rw [filterMap_cons_some option,foldlM_cons] at taken
    cases step : settings.take site given with
    | error halt => rw [step] at taken; cases taken
    | ok middle =>
      rw [step] at taken
      have noted := take_options option step
      have rest := ih (fun arg inside => options arg (mem_cons_of_mem _ inside)) taken
      rw [rest,noted]
      cases arg with
      | plain value => cases option
      | _ => rfl

-- The end of every argument vector a session builds: nothing, or a "--" and the
-- arguments of the tool.
def trailing : Option (List String) → List DaemonArg
  | none => []
  | some args => .plain "--" :: args.map .plain

theorem scanned_trailing : scanned ((trailing args).map DaemonArg.text) = ⟨[],args.getD []⟩ := by
  cases args with
  | none => rfl
  | some args =>
    have texts : (args.map DaemonArg.plain).map DaemonArg.text = args := by
      rw [map_map]
      exact map_id args
    unfold scanned trailing
    rw [map_cons,texts]
    exact scan_finished

theorem read_trailing (options : Options) (args : List DaemonArg) (daemonArgs : Option (List String)) :
    options.read (args ++ trailing daemonArgs) = options.read args := by
  induction args generalizing options with
  | nil => cases daemonArgs <;> rfl
  | cons arg args ih =>
    cases arg with
    | plain value => rfl
    | _ => exact ih _

def daemonArgv (args : List DaemonArg) : List String := "cti_be_daemon" :: args.map DaemonArg.text

section Parsed
variable {site : Site} {args : List DaemonArg} {daemonArgs : Option (List String)}

theorem parse_daemonArgv (options : ∀ arg ∈ args, (answer arg).isSome) (given : args ≠ []) :
    parse site (daemonArgv (args ++ trailing daemonArgs)) = ((args.filterMap answer).foldlM (take site) initial).map fun settings =>
        (settings,daemonArgs.getD []) := by
  have long : ¬ (daemonArgv (args ++ trailing daemonArgs)).length < 2 := by
    have := length_pos_iff.mpr given
    simp only [daemonArgv,length_cons,length_map,length_append]
    omega
  have read : scan longOpts shortOpts none (daemonArgv (args ++ trailing daemonArgs)).tail =
      ⟨args.filterMap answer,daemonArgs.getD []⟩ := by
    have := scanned_options args options ((trailing daemonArgs).map DaemonArg.text)
    rw [scanned_trailing,append_nil,← map_append] at this
    exact this
  rw [parse,if_neg long,read]

end Parsed

-- The pushes of the environment entries, and the stack they leave.
section Pushing
variable {site : Site}

def envAnswer (text : String) : Getopt.Answer Flag := .option .env (some text)

theorem takes_pushes (texts : List String) (settings : Settings) (stack : Stack String) :
    (texts.map envAnswer).foldlM (take site) {settings with envArgs := some stack} =
      match (texts.map stripSpaces).foldlM (push site.grown) stack with
      | .ok stack => .ok {settings with envArgs := some stack}
      | .error fault => .error (faulted fault) := by
  induction texts generalizing stack with
  | nil => rfl
  | cons text texts ih =>
    rw [map_cons,foldlM_cons,map_cons,foldlM_cons]
    cases pushed : stack.push site.grown (stripSpaces text) with
    | error fault =>
      have step : ({settings with envArgs := some stack} : Settings).take site (envAnswer text) = .error (faulted fault) := by
        simp only [Settings.take,envAnswer,Settings.pushEnv,Option.getD_some,pushed]
      rw [step]
      rfl
    | ok stack' =>
      have step : ({settings with envArgs := some stack} : Settings).take site (envAnswer text) =
          .ok {settings with envArgs := some stack'} := by
        simp only [Settings.take,envAnswer,Settings.pushEnv,Option.getD_some,pushed]
      rw [step]
      exact ih stack'

theorem setPopped_pushed (owned : stack.elems = stack.block) (env : Environment String String) :
    setPopped stack.pushed.length stack env = stack.pushed.foldlM setVariable env := by
  obtain ⟨elems,block,numElems,pushed⟩ := stack
  induction pushed generalizing env with
  | nil => rfl
  | cons text pushed ih =>
    have popped : (⟨elems,block,numElems,text :: pushed⟩ : Stack String).pop =
        .ok (some text,⟨elems,block,numElems,pushed⟩) := if_pos owned
    rw [length_cons,setPopped,popped,foldlM_cons]
    dsimp only
    cases setVariable env text with
    | error halt => rfl
    | ok env' => exact ih env' owned

theorem takes_started (unset : settings.envArgs = none) (given : texts ≠ []) : (texts.map envAnswer).foldlM (take site) settings =
      (texts.map envAnswer).foldlM (take site) {settings with envArgs := some (.new site.block)} := by
  cases texts with
  | nil => exact absurd rfl given
  | cons text texts =>
    have same : settings.take site (envAnswer text) =
        ({settings with envArgs := some (.new site.block)} : Settings).take site (envAnswer text) := by
      simp only [Settings.take,envAnswer,Settings.pushEnv,unset,Option.getD_none,Option.getD_some]
    rw [map_cons,foldlM_cons,foldlM_cons,same]

theorem takes_environment {texts : List String} (unset : settings.envArgs = none)
    (roomy : (new site.block : Stack String).Roomy site.grown texts.length) :
    ∃ envArgs, (texts.map envAnswer).foldlM (take site) settings = .ok {settings with envArgs := envArgs} ∧
      ({settings with envArgs := envArgs} : Settings).userEnvironment site =
        (texts.map stripSpaces).reverse.foldlM setVariable site.inherited := by
  cases texts with
  | nil => exact ⟨none,by rw [← unset]; rfl,rfl⟩
  | cons text texts =>
    have owned : (new site.block : Stack String).elems = (new site.block : Stack String).block := rfl
    have room : (new site.block : Stack String).Roomy site.grown ((text :: texts).map stripSpaces).length := by
      rw [length_map]
      exact roomy
    obtain ⟨numElems,pushes⟩ := pushes_kept owned room
    refine ⟨some ⟨site.block,site.block,numElems,((text :: texts).map stripSpaces).reverse⟩,?_,?_⟩
    · rw [takes_started unset (cons_ne_nil _ _),takes_pushes,pushes]
      simp only [new,append_nil]
    · exact setPopped_pushed rfl site.inherited

end Pushing

-- NAME=VALUE, cut at the first "=".
def assignment (text : String) : String × String := ((strsep text).1,(strsep text).2.getD "")

theorem setVariable_valid : setVariable env text =
      if validEnvString text then .ok (env.set (assignment text).1 (assignment text).2) else .error (.returned 1) := by
  by_cases inside : '=' ∈ text.toList
  · obtain ⟨left,right,whole,free⟩ := eq_append_cons_of_mem inside
    have parts : strsep text = (String.ofList left,some (String.ofList right)) := by
      unfold strsep
      rw [whole,takeWhile_sep free,dropWhile_sep free]
    have named : validEnvString text = !left.isEmpty := by
      unfold validEnvString
      rw [whole]
      cases left with
      | nil => simp
      | cons c left =>
        have other : c ≠ '=' := fun same => free (same ▸ mem_cons_self)
        simp [other]
    unfold setVariable assignment
    rw [parts,named]
    cases left <;> simp
  · have parts : (strsep text).2 = none := by
      unfold strsep
      rw [dropWhile_free inside]
    have invalid : validEnvString text = false := by simp [validEnvString,inside]
    unfold setVariable
    rw [invalid]
    split
    · rename_i same
      rw [same] at parts
      cases parts
    · rfl

theorem setVariables_valid {texts : List String} (valid : ∀ text ∈ texts, validEnvString text = true)
    (env : Environment String String) : texts.foldlM setVariable env = .ok (env.setAll (texts.map assignment)) := by
  induction texts generalizing env with
  | nil => rfl
  | cons text texts ih =>
    have step : setVariable env text = .ok (env.set (assignment text).1 (assignment text).2) := by
      rw [setVariable_valid,if_pos (valid text mem_cons_self)]
    rw [foldlM_cons,step]
    exact ih (fun text inside => valid text (mem_cons_of_mem _ inside)) _

theorem setVariables_invalid {texts : List String} (listed : text ∈ texts)
    (invalid : validEnvString text = false) (env : Environment String String) : texts.foldlM setVariable env = .error (.returned 1) := by
  induction texts generalizing env with
  | nil => cases listed
  | cons first texts ih =>
    rw [foldlM_cons,setVariable_valid]
    by_cases good : validEnvString first = true
    · rw [if_pos good]
      rcases mem_cons.mp listed with rfl | later
      · rw [good] at invalid; cases invalid
      · exact ih later _
    · rw [if_neg good]
      rfl

theorem ownEnvironment_other {settings : Settings} (foreign : name ∉ Settings.ownVariables)
    : settings.ownEnvironment site env name = env name := by
  simp only [ownVariables,mem_cons,not_mem_nil,or_false,not_or] at foreign
  obtain ⟨cwd,apid,wlm,guard,root,oldScratch,scratch,bin,lib,file,top,attribs,path,libPath⟩ := foreign
  have adjusted : ∀ env, settings.adjustPaths env name = env name := fun env => by
    rw [adjustPaths,set_other libPath,set_other path]
  unfold ownEnvironment
  rw [adjusted,setIf_other attribs,set_other top,set_other file,
    set_other lib,set_other bin,set_other scratch,setIf_other oldScratch,
    set_other root,set_other guard,set_other wlm,set_other apid,
    setIf_other cwd]

-- What execManifest has in hand when it builds the argument vector.
structure Exec where
  app : App
  session : Session
  archiveName : String
  binaryName : String
  daemonArgs : Option (List String)
  envVars : Option (List String)

def unlessEmpty (value : String) : Option String := if value ≠ "" then some (stripSpaces value) else none

namespace Exec
variable (exec : Exec)

def args : List DaemonArg :=
  execArgs exec.app exec.session exec.archiveName exec.binaryName exec.daemonArgs exec.envVars

def argv : List String := daemonArgv exec.args

def leading : List DaemonArg :=
  [apID exec.app.jobId,toolPath exec.app.toolPath] ++
    (if exec.app.attribsPath ≠ "" then [pmiAttribsPath exec.app.attribsPath] else []) ++
    (if exec.session.ldLibraryPath ≠ "" then [ldLibraryPath exec.session.ldLibraryPath] else []) ++
    [wlmEnum exec.session.wlmType] ++
    (if exec.archiveName ≠ "" then [manifestName exec.archiveName] else []) ++
    [DaemonArg.binary exec.binaryName,DaemonArg.directory exec.session.stageName,DaemonArg.instSeqNum exec.session.seqNum] ++
    (if exec.app.debug then [DaemonArg.debug] else [])

def entries : List String := exec.app.defaultEnvVars ++ exec.envVars.getD []

def noted : Settings :=
  ⟨some (stripSpaces exec.app.jobId),some (stripSpaces exec.app.toolPath),unlessEmpty exec.app.attribsPath,
    unlessEmpty exec.session.ldLibraryPath,atoi exec.session.wlmType,some (stripSpaces exec.binaryName),
    some (stripSpaces exec.session.stageName),unlessEmpty exec.archiveName,exec.session.seqNum,false,exec.app.debug,false,
    none⟩

def binaryPath : String := exec.noted.binaryPath (stripSpaces exec.binaryName)

def stored : List String := exec.entries.map stripSpaces

theorem args_parts : exec.args = exec.leading ++ exec.entries.map .envVariable ++ trailing exec.daemonArgs := by
  unfold args
  cases exec.daemonArgs <;> simp [execArgs,leading,commonArgs,entries,trailing]

theorem options (listed : arg ∈ exec.leading ++ exec.entries.map .envVariable) : (answer arg).isSome := by
  cases arg with
  | plain value =>
    unfold leading at listed
    split_ifs at listed <;> simp at listed
  | _ => rfl

section Taking
variable {site : Site} {settings middle last : Settings}

theorem takes_append {front back : List DaemonArg} (first : (front.filterMap answer).foldlM (Settings.take site) settings = .ok middle)
    (second : (back.filterMap answer).foldlM (take site) middle = .ok last) :
    ((front ++ back).filterMap answer).foldlM (take site) settings = .ok last := by
  rw [filterMap_append,foldlM_append,first]
  exact second

theorem takes_optional {arg : DaemonArg} {given : Getopt.Answer Flag} (option : answer arg = some given)
    (note : Option String → Settings) {value : String} (present : (note none).take site given = .ok (note (some (stripSpaces value)))) :
    ((if value ≠ "" then [arg] else []).filterMap answer).foldlM (take site) (note none) = .ok (note (unlessEmpty value)) := by
  unfold unlessEmpty
  split
  · rw [filterMap_cons_some option,foldlM_cons,present]
    rfl
  · rfl

theorem takes_debug (debug : Bool) (quiet : settings.debug = false) :
    ((if debug then [DaemonArg.debug] else []).filterMap answer).foldlM (take site) settings = .ok {settings with debug := debug} := by
  cases debug with
  | false => exact congrArg (fun debug => Except.ok {settings with debug := debug}) quiet
  | true => rfl

end Taking

theorem take_leading {site : Site} : (exec.leading.filterMap answer).foldlM (take site) initial = .ok exec.noted := by
  let started : Settings := {initial with
    apid := some (stripSpaces exec.app.jobId), toolPath := some (stripSpaces exec.app.toolPath)}
  let paths : Settings := {started with
    attribsPath := unlessEmpty exec.app.attribsPath, ldLibPath := unlessEmpty exec.session.ldLibraryPath}
  let managed : Settings := {paths with wlmArg := atoi exec.session.wlmType}
  have attribs := @takes_optional site (.pmiAttribsPath exec.app.attribsPath) _ rfl (fun path => {started with attribsPath := path}) _ rfl
  have libraries := @takes_optional site (.ldLibraryPath exec.session.ldLibraryPath) _ rfl (fun path => {paths with ldLibPath := path}) _ rfl
  have archive := @takes_optional site (.manifestName exec.archiveName) _ rfl (fun name => {managed with manifest := name}) _ rfl
  have debug := @takes_debug site {exec.noted with debug := false} exec.app.debug rfl
  refine takes_append (takes_append (takes_append (takes_append (takes_append (takes_append ?_ attribs) libraries) ?_) archive) ?_) debug
  · rfl
  · rfl
  · exact congrArg (fun inst => Except.ok {exec.noted with inst := inst, debug := false}) atoi_number

end Exec

structure Site.Ready (site : Site) (wlm : WlmType) (settings : Settings) : Prop where
  supported : wlm.valid = true
  compiled : wlm ∈ [.alps,.pals,.flux] → site.built wlm = true
  wlmInit : site.wlmInit wlm = true
  entered : site.entered settings.tool = true
  unpacked : settings.unpack site = .ok ()
  isDirectory : site.isDirectory settings.root = true
  recorded : site.recorded (settings.root ++ "/.cti_pids") = true
  adjusted : site.adjusted settings.root = true
  isRegular : ∀ binary, settings.binary = some binary → site.isRegular (settings.binaryPath binary) = true

section Ready
variable {site : Site} {wlm : WlmType} {settings : Settings}

theorem ofNumber_number : WlmType.ofNumber wlm.number = some wlm := by
  cases wlm <;> rfl

theorem wlmProto_ready (ready : site.Ready wlm settings) (kind : settings.wlmArg = wlm.number) :
    settings.wlmProto site = wlm ∧ settings.wlmValid = true ∧ wlm ≠ .none := by
  have supported := ready.supported
  have compiled := ready.compiled
  unfold wlmProto wlmValid
  rw [kind,ofNumber_number]
  cases wlm <;> simp_all [WlmType.valid]

theorem staged_ready (ready : site.Ready wlm settings) (kind : settings.wlmArg = wlm.number)
    (apid : settings.apid.isSome) (directory : settings.directory.isSome) (toolPath : settings.toolPath.isSome) :
    settings.staged site = .ok () := by
  obtain ⟨proto,valid,known⟩ := wlmProto_ready ready kind
  have some : (wlm != .none) = true := by simpa using known
  unfold staged
  rw [valid,apid,directory,toolPath,proto,some,ready.wlmInit,ready.entered,ready.unpacked,ready.isDirectory]
  rfl

theorem execTool_ready (ready : site.Ready wlm settings) (stays : settings.cleanup = false) (named : settings.binary = some binary) :
    execTool site settings rest env =
      .ok ⟨settings.binaryPath binary,settings.binaryPath binary :: rest,settings.ownEnvironment site env⟩ := by
  unfold execTool
  rw [stays,ready.recorded,ready.adjusted,named]
  dsimp only
  rw [ready.isRegular binary named]
  rfl

end Ready

namespace Exec
variable {site : Site} {exec : Exec}

theorem parse_entries : parse site exec.argv = ((exec.entries.map envAnswer).foldlM (Settings.take site) exec.noted).map
    fun settings => (settings,exec.daemonArgs.getD []) := by
  have answers : (exec.entries.map envVariable).filterMap answer = exec.entries.map envAnswer := by
    rw [filterMap_map]
    exact congrFun filterMap_eq_map exec.entries
  unfold argv
  rw [args_parts,parse_daemonArgv (fun arg => exec.options) (by simp [leading]),filterMap_append,foldlM_append,
    take_leading,answers]
  rfl

theorem parsed (roomy : (Stack.new site.block : Stack String).Roomy site.grown exec.entries.length) :
    ∃ envArgs, parse site exec.argv = .ok ({exec.noted with envArgs := envArgs},exec.daemonArgs.getD []) ∧
      ({exec.noted with envArgs := envArgs} : Settings).userEnvironment site = exec.stored.reverse.foldlM setVariable site.inherited := by
  obtain ⟨envArgs,taken,left⟩ := takes_environment (rfl : exec.noted.envArgs = none) roomy
  refine ⟨envArgs,?_,left⟩
  rw [parse_entries,taken]
  rfl

theorem ran (roomy : (Stack.new site.block : Stack String).Roomy site.grown exec.entries.length)
    (kind : exec.session.wlmType = toString wlm.number) (ready : site.Ready wlm exec.noted) :
    main site exec.argv = (exec.stored.reverse.foldlM setVariable site.inherited).map fun env =>
      ⟨exec.binaryPath,exec.binaryPath :: exec.daemonArgs.getD [],exec.noted.ownEnvironment site env⟩ := by
  obtain ⟨envArgs,parsed,left⟩ := exec.parsed roomy
  have number : ({exec.noted with envArgs := envArgs} : Settings).wlmArg = wlm.number := by
    rw [← atoi_number,← kind]
    rfl
  -- What is noted about the environment plays no part in the later checks.
  have ready' : site.Ready wlm {exec.noted with envArgs := envArgs} := ⟨ready.supported,ready.compiled,ready.wlmInit,
    ready.entered,ready.unpacked,ready.isDirectory,ready.recorded,ready.adjusted,ready.isRegular⟩
  unfold main
  rw [parsed]
  change Except.bind (({exec.noted with envArgs := envArgs} : Settings).userEnvironment site) _ = _
  rw [left]
  cases exec.stored.reverse.foldlM setVariable site.inherited with
  | error halt => rfl
  | ok env =>
    rw [staged_ready ready' number rfl rfl rfl]
    exact execTool_ready ready' rfl rfl

variable (exec) in
def assigned : List (String × String) := exec.stored.map assignment

variable (exec) in
def listed : List (String × String) := ((exec.envVars.getD []).map stripSpaces).map assignment

theorem listed_assigned (inside : entry ∈ exec.listed) : entry ∈ exec.assigned := by
  unfold assigned stored entries
  rw [map_append,map_append]
  exact mem_append_right _ inside

theorem ran_valid (roomy : (Stack.new site.block : Stack String).Roomy site.grown exec.entries.length) {wlm : WlmType}
    (kind : exec.session.wlmType = toString wlm.number) (ready : site.Ready wlm exec.noted)
    (valid : ∀ text ∈ exec.stored, validEnvString text = true) :
    main site exec.argv = .ok ⟨exec.binaryPath,exec.binaryPath :: exec.daemonArgs.getD [],
      exec.noted.ownEnvironment site (site.inherited.setAll exec.assigned.reverse)⟩ := by
  rw [ran roomy kind ready,setVariables_valid fun text inside => valid text (mem_reverse.mp inside),map_reverse]
  rfl

end Exec

def smoothSite : Site :=
  ⟨fun _ => .inPlace,0,fun _ => none,fun _ => true,fun _ => true,none,fun _ => true,fun _ => true,fun _ => true,
    fun _ => true,fun _ => true,fun _ => true⟩

def stagedApp (jobId : String) : App := ⟨jobId,"/tmp","",[],[],[],[],["CTI_LOG_DIR=/log"],false⟩

def stagedExec (jobId : String) (envVars : List String) : Exec :=
  ⟨stagedApp jobId,.start (stagedApp jobId) "cti_daemonQb3xR1" "2","","tool",some ["--apid=9","","-x"],some envVars⟩

theorem smooth_ready : smoothSite.Ready .slurm (stagedExec jobId envVars).noted := ⟨rfl,fun _ => rfl,rfl,rfl,rfl,rfl,rfl,rfl,fun _ _ => rfl⟩

def Exec.RoundTrips (site : Site) (exec : Exec) : Prop :=
  ∃ settings tool, parse site exec.argv = .ok (settings,exec.daemonArgs.getD []) ∧
    settings.apid = some exec.app.jobId ∧ settings.toolPath = some exec.app.toolPath ∧
    settings.directory = some exec.session.stageName ∧ settings.ldLibPath.getD "" = exec.session.ldLibraryPath ∧
    settings.attribsPath.getD "" = exec.app.attribsPath ∧ main site exec.argv = .ok tool ∧
    tool.argv = tool.path :: exec.daemonArgs.getD [] ∧
    ∀ name value, last ((exec.envVars.getD []).map assignment) name = some value → tool.env name = some value

theorem staged_env (valid : ∀ text ∈ (stagedExec jobId envVars).stored, validEnvString text = true)
    (trip : (stagedExec jobId envVars).RoundTrips smoothSite) (given : last (envVars.map assignment) name = some value) :
    (stagedExec jobId envVars).noted.ownEnvironment smoothSite
      (smoothSite.inherited.setAll (stagedExec jobId envVars).assigned.reverse) name = some value := by
  obtain ⟨settings,tool,_,_,_,_,_,_,ran,_,values⟩ := trip
  have room : (new smoothSite.block : Stack String).Roomy smoothSite.grown (stagedExec jobId envVars).entries.length := .inr fun _ => rfl
  have kind : (stagedExec jobId envVars).session.wlmType = toString WlmType.slurm.number := (by decide : "2" = toString 2)
  have started := Exec.ran_valid room kind smooth_ready valid
  have same := congrArg Tool.env (Except.ok.inj (ran.symm.trans started))
  exact (congrFun same name).symm.trans (values name value given)

def movingSite : Site := {smoothSite with grown := fun _ => .moved 1}

theorem overfull_undefined (many : defaultStack ≤ envVars.length) :
    parse movingSite (stagedExec "7.0" envVars).argv = .error .undefined := by
  have long : defaultStack < (0 + ((stagedExec "7.0" envVars).entries.map stripSpaces).length) := by
    have counted : (stagedExec "7.0" envVars).entries.length = 1 + envVars.length := length_append
    rw [length_map]
    omega
  have stale := pushes_stale (s := (new movingSite.block : Stack String)) rfl (Nat.zero_le _) (rfl : movingSite.grown _ = .moved 1) (by decide)
    long
  have some : (stagedExec "7.0" envVars).entries ≠ [] := cons_ne_nil _ _
  rw [Exec.parse_entries,takes_started rfl some,takes_pushes,stale]
  rfl

end CommonTools.Backend
