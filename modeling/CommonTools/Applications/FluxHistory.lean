import CommonTools.Placement.Proctable

namespace CommonTools.Applications.FluxHistory
open OrderedMaps Numerals Scanning FeDaemon Placement.Flux List

-- flux_job_id_encode for the type f58, or the text of errno.
structure LibFlux where
  encode : BitVec 64 → Except Bytes Bytes
  lettered : ∀ id text, encode id = .ok text → text.head? = some 102
  injective : ∀ id other text, encode id = .ok text → encode other = .ok text → id = other

-- What all applications of the process share: the library, the environment and the host.
structure Site where
  libFlux : LibFlux
  forceAscii : Bool
  backendTmpdir : Option Bytes
  rundir : Option Bytes
  writable : Bytes → Bool
  gethostname : CStr

def utf8Prefix : Bytes := [198,146]

def encodeJobId (site : Site) (id : BitVec 64) : Except Bytes Bytes :=
  match site.libFlux.encode id with
  | .error errno => .error (ascii "failed to encode Flux job id: " ++ errno)
  | .ok text => .ok (if site.forceAscii then text else utf8Prefix ++ text.tail)

theorem encodeJobId_injective {site : Site} {id other : BitVec 64} {text : Bytes} (first : encodeJobId site id = .ok text)
    (second : encodeJobId site other = .ok text) : id = other := by
  unfold encodeJobId at first second
  cases left : site.libFlux.encode id with
  | error errno => simp [left] at first
  | ok own =>
    cases right : site.libFlux.encode other with
    | error errno => simp [right] at second
    | ok others =>
      have same : own = others := by
        simp only [left,Except.ok.injEq] at first
        simp only [right,Except.ok.injEq] at second
        have equal := first.trans second.symm
        split at equal
        · exact equal
        · have tails := append_cancel_left equal
          have heads := (site.libFlux.lettered id own left).trans (site.libFlux.lettered other others right).symm
          exact ext_getElem? fun place => by
            cases place with
            | zero => simpa [List.head?_eq_getElem?] using heads
            | succ place => simpa using congrArg (fun text : Bytes => text[place]?) tails
      exact site.libFlux.injective id other own left (same ▸ right)

-- What the Flux API says about a job. A failure before the proctable is there, and one
-- while the output is attached, carry their text.
structure Job where
  jobId : BitVec 64
  leaderRank : Int
  proctable : Ptree
  queryTrouble : Option Bytes
  attachTrouble : Option Bytes

structure FluxApp where
  jobId : BitVec 64
  leaderRank : Int
  numPEs : Nat
  binaryName : Bytes
  toolPath : Bytes
  deriving DecidableEq

def flattenPrefixList (root : Ptree) : Except String (List Bytes) := do
  let calls ← forEachPrefixList root
  return calls.map fun call => call.1.1 ++ call.2.1

def singleBinary : List Bytes → Except Bytes Bytes
  | [] => .error (ascii "Could not extract binary name from proctable response (executables was empty)")
  | firstBinary :: rest =>
    match rest.find? fun binary => decide (binary ≠ firstBinary) with
    | none => .ok firstBinary
    | some binary => .error (ascii "expected a single binary launched with Flux. Got " ++ firstBinary ++ ascii " and " ++ binary)

def Site.tmpdir (site : Site) : Bytes :=
  match site.backendTmpdir with
  | some dir => dir
  | none =>
    match site.rundir with
    | some rundir => if site.writable rundir then rundir else ascii "/tmp"
    | none => ascii "/tmp"

def jobTmpdir (site : Site) (leaderRank : Int) (jobIdF58 : Bytes) : Bytes :=
  site.tmpdir ++ ascii "/jobtmp-" ++ decimalInt leaderRank ++ ascii "-" ++ jobIdF58

def newFluxApp (site : Site) (job : Job) : Except Bytes FluxApp := do
  match job.queryTrouble with
  | some what => throw what
  | none =>
    let hostsPlacement ← (makeHostsPlacement site.gethostname job.proctable).mapError ascii
    let _ ← (createNodeLayoutFile hostsPlacement).mapError ascii
    let executables ← (job.proctable.getChild "executables").mapError ascii
    let binaryList ← (flattenPrefixList executables).mapError ascii
    let binaryName ← singleBinary binaryList
    let jobIdF58 ← encodeJobId site job.jobId
    return ⟨job.jobId,job.leaderRank,(hostsPlacement.map HostPlacement.numPEs).sum,binaryName,
      jobTmpdir site job.leaderRank jobIdF58⟩

-- A static variable of a function: the first value that is made for it stays.
def once {ε α : Type} (static : Option α) (make : Except ε α) : Except ε α × Option α :=
  match static with
  | some value => (.ok value,some value)
  | none =>
    match make with
    | .ok value => (.ok value,some value)
    | .error what => (.error what,none)

def FluxApp.rankMap (app : FluxApp) : BinaryRankMap := OrderedMap.empty.insert app.binaryName (List.range app.numPEs)

structure Process where
  jobIdF58 : Option Bytes
  binaryRankMap : Option BinaryRankMap
  apps : List (Option FluxApp)

def Process.start : Process := ⟨none,none,[]⟩

def live (apps : List (Option FluxApp)) (app : Nat) : Option FluxApp := apps[app]?.join

inductive Call where
  | create (job : Job)
  | getJobId (app : Nat)
  | getBinaryRankMap (app : Nat)
  | getAttribsPath (app : Nat)
  | release (app : Nat)

inductive Answer where
  | created (app : Nat) (attached : Bytes)
  | jobId (text : Bytes)
  | binaryRankMap (ranks : BinaryRankMap)
  | attribsPath (path : Bytes)
  | released
  | invalid

def Process.create (site : Site) (process : Process) (job : Job) : Except Bytes Answer × Process :=
  match newFluxApp site job with
  | .error what => (.error what,process)
  | .ok app =>
    match once process.jobIdF58 (encodeJobId site app.jobId) with
    | (.error what,_) => (.error what,process)
    | (.ok attached,jobIdF58) =>
      match job.attachTrouble with
      | some what => (.error what,{process with jobIdF58 := jobIdF58})
      | none => (.ok (.created process.apps.length attached),{process with jobIdF58 := jobIdF58,apps := process.apps ++ [some app]})

def Process.getJobId (site : Site) (process : Process) (app : FluxApp) : Except Bytes Answer × Process :=
  let (result,jobIdF58) := once process.jobIdF58 (encodeJobId site app.jobId)
  (result.map Answer.jobId,{process with jobIdF58 := jobIdF58})

def Process.getBinaryRankMap (process : Process) (app : FluxApp) : Except Bytes Answer × Process :=
  let (result,binaryRankMap) := once process.binaryRankMap (.ok app.rankMap)
  (result.map Answer.binaryRankMap,{process with binaryRankMap := binaryRankMap})

def Process.step (site : Site) (process : Process) : Call → Except Bytes Answer × Process
  | .create job => process.create site job
  | .getJobId app =>
    match live process.apps app with
    | some app => process.getJobId site app
    | none => (.ok .invalid,process)
  | .getBinaryRankMap app =>
    match live process.apps app with
    | some app => process.getBinaryRankMap app
    | none => (.ok .invalid,process)
  | .getAttribsPath app =>
    match live process.apps app with
    | some app => (.ok (.attribsPath app.toolPath),process)
    | none => (.ok .invalid,process)
  | .release app => (.ok .released,{process with apps := process.apps.set app none})

def Process.run (site : Site) (process : Process) (calls : List Call) : Process :=
  calls.foldl (fun process call => (process.step site call).2) process

section Independence
variable (site : Site)

def Own (process : Process) (answer : Except Bytes Answer) : Call → Prop
  | .getJobId app => ∀ own, live process.apps app = some own →
    ∃ text, encodeJobId site own.jobId = .ok text ∧ answer = .ok (.jobId text)
  | .getBinaryRankMap app => ∀ own, live process.apps app = some own → answer = .ok (.binaryRankMap own.rankMap)
  | .getAttribsPath app => ∀ own, live process.apps app = some own →
    ∃ text, encodeJobId site own.jobId = .ok text ∧ answer = .ok (.attribsPath (jobTmpdir site own.leaderRank text))
  | .create _ | .release _ => True

def Independent (calls : List Call) : Prop := ∀ before call after, calls = before ++ call :: after →
  Own site (Process.start.run site before) ((Process.start.run site before).step site call).1 call

def track (apps : List (Option FluxApp)) : Call → List (Option FluxApp)
  | .create job =>
    match newFluxApp site job with
    | .error _ => apps
    | .ok app => if job.attachTrouble.isSome then apps else apps ++ [some app]
  | .release app => apps.set app none
  | .getJobId _ | .getBinaryRankMap _ | .getAttribsPath _ => apps

def appsAfter (calls : List Call) : List (Option FluxApp) := calls.foldl (track site) []

-- The first job whose output was to be attached, and the first application that was
-- asked for its ranks.
def firstJob (calls : List Call) : Option (BitVec 64) := calls.findSome? fun
  | .create job => match newFluxApp site job with
    | .error _ => none
    | .ok app => some app.jobId
  | _ => none

def askedRanks (apps : List (Option FluxApp)) : Call → Option FluxApp
  | .getBinaryRankMap app => live apps app
  | _ => none

def firstAsked (calls : List Call) : Option FluxApp :=
  (calls.foldl (fun (state : Option FluxApp × List (Option FluxApp)) call =>
    (state.1.or (askedRanks state.2 call),track site state.2 call)) (none,[])).1

-- Nothing but the first job is asked for its id, and what is asked for its ranks has the
-- program and the number of ranks of the first that was.
def Fits (before : List Call) : Call → Prop
  | .getJobId app => ∀ own, live (appsAfter site before) app = some own → firstJob site before = some own.jobId
  | .getBinaryRankMap app => ∀ own, live (appsAfter site before) app = some own →
    ∀ first, firstAsked site before = some first → first.binaryName = own.binaryName ∧ first.numPEs = own.numPEs
  | .create _ | .getAttribsPath _ | .release _ => True

end Independence

section Following
variable {site : Site}

theorem bind_result {ε α β : Type} {first : Except ε α} {next : α → Except ε β} {result : β}
    (done : (first >>= next) = .ok result) : ∃ value, first = .ok value ∧ next value = .ok result := by
  cases first with
  | error what => cases done
  | ok value => exact ⟨value,rfl,done⟩

theorem newFluxApp_made {job : Job} {app : FluxApp} (made : newFluxApp site job = .ok app) :
    ∃ text, encodeJobId site app.jobId = .ok text ∧ app.toolPath = jobTmpdir site app.leaderRank text := by
  unfold newFluxApp at made
  split at made
  · cases made
  · obtain ⟨hostsPlacement,_,made⟩ := bind_result made
    obtain ⟨layout,_,made⟩ := bind_result made
    obtain ⟨executables,_,made⟩ := bind_result made
    obtain ⟨binaryList,_,made⟩ := bind_result made
    obtain ⟨binaryName,_,made⟩ := bind_result made
    obtain ⟨text,encoded,made⟩ := bind_result made
    cases made
    exact ⟨text,encoded,rfl⟩

theorem appsAfter_snoc : appsAfter site (before ++ [call]) = track site (appsAfter site before) call := by
  simp [appsAfter]

theorem firstJob_snoc :
    firstJob site (before ++ [call]) = (firstJob site before).or (firstJob site [call]) := findSome?_append

theorem firstAsked_snoc : firstAsked site (before ++ [call]) = (firstAsked site before).or (askedRanks (appsAfter site before) call) := by
  have apps : ∀ calls : List Call, (calls.foldl (fun (state : Option FluxApp × List (Option FluxApp)) call =>
      (state.1.or (askedRanks state.2 call),track site state.2 call)) (none,[])).2 = appsAfter site calls := by
    intro calls
    induction calls using reverseRecOn with
    | nil => rfl
    | append_singleton calls call ih => simp [ih,appsAfter_snoc]
  rw [firstAsked,foldl_append,foldl_cons,apps]
  rfl

theorem firstAsked_other (other : ∀ apps, askedRanks apps call = none) : firstAsked site (before ++ [call]) = firstAsked site before := by
  rw [firstAsked_snoc,other,Option.or_none]

structure Described (site : Site) (before : List Call) (process : Process) : Prop where
  apps : process.apps = appsAfter site before
  jobId : process.jobIdF58.map Except.ok = (firstJob site before).map (encodeJobId site)
  ranks : process.binaryRankMap = (firstAsked site before).map FluxApp.rankMap
  paths : ∀ app own, live process.apps app = some own →
    ∃ text, encodeJobId site own.jobId = .ok text ∧ own.toolPath = jobTmpdir site own.leaderRank text
  attached : ∀ app own, live process.apps app = some own → (firstJob site before).isSome = true

theorem live_append {apps : List (Option FluxApp)} {app own : FluxApp} {place : Nat}
    (found : live (apps ++ [some app]) place = some own) : live apps place = some own ∨ own = app := by
  unfold live at found ⊢
  rw [getElem?_append] at found
  split at found
  · exact .inl found
  · cases rest : place - apps.length with
    | zero => simp [rest] at found; exact .inr found.symm
    | succ more => simp [rest] at found

theorem live_set {apps : List (Option FluxApp)} {gone place : Nat}
    (found : live (apps.set gone none) place = some own) : live apps place = some own := by
  unfold live at found ⊢
  rw [getElem?_set] at found
  split at found
  · split at found <;> simp at found
  · exact found

variable {before : List Call} {process : Process}

section
variable (described : Described site before process)
include described

-- The static id is there as soon as one constructor got as far as attaching the output.
theorem Described.static (some' : (firstJob site before).isSome = true) :
    ∃ id text, firstJob site before = some id ∧ encodeJobId site id = .ok text ∧ process.jobIdF58 = some text := by
  obtain ⟨id,first⟩ := Option.isSome_iff_exists.mp some'
  have kept := described.jobId
  rw [first] at kept
  obtain ⟨text,static,encoded⟩ := Option.map_eq_some_iff.mp kept
  exact ⟨id,text,first,encoded.symm,static⟩

theorem Described.aside {call : Call} {ranks : Option BinaryRankMap}
    (apps : track site (appsAfter site before) call = appsAfter site before) (jobs : firstJob site [call] = none)
    (asked : ranks = (firstAsked site (before ++ [call])).map FluxApp.rankMap) :
    Described site (before ++ [call]) {process with binaryRankMap := ranks} := by
  have same : firstJob site (before ++ [call]) = firstJob site before := by rw [firstJob_snoc,jobs,Option.or_none]
  refine ⟨?_,?_,asked,described.paths,?_⟩
  · rw [appsAfter_snoc,apps]
    exact described.apps
  · rw [same]
    exact described.jobId
  · rw [same]
    exact described.attached

theorem create_described : Described site (before ++ [.create job]) (process.create site job).2 := by
  have asked : firstAsked site (before ++ [.create job]) = firstAsked site before := firstAsked_other (fun _ => rfl)
  unfold Process.create
  cases made : newFluxApp site job with
  | error what =>
    have apps : track site (appsAfter site before) (.create job) = appsAfter site before := by simp [track,made]
    have jobs : firstJob site [.create job] = none := by simp [firstJob,made]
    exact described.aside apps jobs (asked ▸ described.ranks)
  | ok app =>
    obtain ⟨text,encoded,path⟩ := newFluxApp_made made
    have first : firstJob site (before ++ [.create job]) = (firstJob site before).or (some app.jobId) := by
      simp [firstJob,made]
    -- The static id after the constructor, whether or not it was there before.
    obtain ⟨attached,static,initial⟩ : ∃ attached, once process.jobIdF58 (encodeJobId site app.jobId) = (.ok attached,some attached) ∧
        (some (Except.ok attached) : Option (Except Bytes Bytes)) = (firstJob site (before ++ [.create job])).map (encodeJobId site) := by
      have kept := described.jobId
      cases was : process.jobIdF58 with
      | some value =>
        rw [was] at kept
        obtain ⟨id,known,same⟩ := Option.map_eq_some_iff.mp kept.symm
        exact ⟨value,rfl,by simp [first,known,same]⟩
      | none =>
        rw [was] at kept
        have absent := Option.map_eq_none_iff.mp kept.symm
        exact ⟨text,by simp [once,encoded],by simp [first,absent,encoded]⟩
    simp only [static]
    cases trouble : job.attachTrouble with
    | some what =>
      refine ⟨?_,by simpa using initial,asked ▸ described.ranks,described.paths,fun place own found => ?_⟩
      · simp [appsAfter_snoc,track,made,trouble,described.apps]
      · simp [first]
    | none =>
      refine ⟨?_,by simpa using initial,asked ▸ described.ranks,fun place own found => ?_,fun place own found => ?_⟩
      · simp [appsAfter_snoc,track,made,trouble,described.apps]
      · rcases live_append found with earlier | rfl
        · exact described.paths place own earlier
        · exact ⟨text,encoded,path⟩
      · simp [first]

theorem step_described {call : Call} : Described site (before ++ [call]) (process.step site call).2 := by
  cases call with
  | create job => exact create_described described
  | getJobId app =>
    have asked : firstAsked site (before ++ [.getJobId app]) = firstAsked site before := firstAsked_other (fun _ => rfl)
    have same := described.aside rfl rfl (asked ▸ described.ranks)
    simp only [Process.step]
    split
    · rename_i own found
      obtain ⟨id,text,_,_,static⟩ := described.static (described.attached app own found)
      have kept : (process.getJobId site own).2 = process := by
        simp only [Process.getJobId,static,once]
        rw [← static]
      rw [kept]
      exact same
    · exact same
  | getBinaryRankMap app =>
    have apps := described.apps
    simp only [Process.step]
    split
    · rename_i own found
      refine described.aside rfl rfl ?_
      rw [firstAsked_snoc,askedRanks,← apps,found,described.ranks]
      cases firstAsked site before <;> rfl
    · rename_i missing
      refine described.aside rfl rfl ?_
      rw [firstAsked_snoc,askedRanks,← apps,missing,Option.or_none]
      exact described.ranks
  | getAttribsPath app =>
    have asked : firstAsked site (before ++ [.getAttribsPath app]) = firstAsked site before := firstAsked_other (fun _ => rfl)
    simp only [Process.step]
    split <;> exact described.aside rfl rfl (asked ▸ described.ranks)
  | release app =>
    have asked : firstAsked site (before ++ [.release app]) = firstAsked site before := firstAsked_other (fun _ => rfl)
    have first : firstJob site (before ++ [.release app]) = firstJob site before := by
      rw [firstJob_snoc]
      exact Option.or_none
    refine ⟨?_,first ▸ described.jobId,asked ▸ described.ranks,fun place own found => described.paths place own (live_set found),
      fun place own found => first ▸ described.attached place own (live_set found)⟩
    rw [appsAfter_snoc]
    exact congrArg (fun apps => apps.set app none) described.apps

end

theorem run_described : Described site before (Process.start.run site before) := by
  induction before using reverseRecOn with
  | nil => exact ⟨rfl,rfl,rfl,fun _ _ found => absurd found (by simp [Process.run,Process.start,live]),
      fun _ _ found => absurd found (by simp [Process.run,Process.start,live])⟩
  | append_singleton before call ih =>
    have step : Process.start.run site (before ++ [call]) = ((Process.start.run site before).step site call).2 := by simp [Process.run]
    rw [step]
    exact step_described ih

end Following

theorem rankMap_same {app other : FluxApp} :
    app.rankMap = other.rankMap ↔ app.binaryName = other.binaryName ∧ app.numPEs = other.numPEs := by
  constructor
  · intro same
    have rows : [(app.binaryName,List.range app.numPEs)] = [(other.binaryName,List.range other.numPEs)] := congrArg OrderedMap.entries same
    simp only [List.cons.injEq,Prod.mk.injEq,and_true] at rows
    exact ⟨rows.1,by simpa using congrArg List.length rows.2⟩
  · intro ⟨binary,number⟩
    simp [FluxApp.rankMap,binary,number]

section Answers
variable {site : Site} {before : List Call} {process : Process}

theorem jobId_own (described : Described site before process) :
    Own site process (process.step site (.getJobId app)).1 (.getJobId app) ↔ Fits site before (.getJobId app) := by
  simp only [Own,Fits,Process.step,← described.apps]
  refine forall₂_congr fun own found => ?_
  obtain ⟨id,first,known,encoded,static⟩ := described.static (described.attached app own found)
  simp only [found,Process.getJobId,static,once,Except.map,known,Option.some.injEq,Except.ok.injEq,Answer.jobId.injEq]
  constructor
  · rintro ⟨_,other,rfl⟩
    exact encodeJobId_injective encoded other
  · rintro rfl
    exact ⟨first,encoded,rfl⟩

theorem ranks_own (described : Described site before process) :
    Own site process (process.step site (.getBinaryRankMap app)).1 (.getBinaryRankMap app) ↔ Fits site before (.getBinaryRankMap app) := by
  simp only [Own,Fits,Process.step,← described.apps]
  refine forall₂_congr fun own found => ?_
  simp only [found,Process.getBinaryRankMap,described.ranks]
  cases asked : firstAsked site before with
  | none => simp [once,Except.map]
  | some first => simp [once,Except.map,rankMap_same]

theorem path_own (described : Described site before process) :
    Own site process (process.step site (.getAttribsPath app)).1 (.getAttribsPath app) := by
  intro own found
  obtain ⟨text,encoded,path⟩ := described.paths app own found
  exact ⟨text,encoded,by simp [Process.step,found,path]⟩

end Answers

-- The answers are about an application's own job as long as the values that are kept in
-- static variables are.
theorem flux_applications_independent (site : Site) (calls : List Call) :
    Independent site calls ↔ ∀ before call after, calls = before ++ call :: after → Fits site before call := by
  refine forall₄_congr fun before call after _ => ?_
  have described : Described site before (Process.start.run site before) := run_described
  cases call with
  | create job => exact Iff.rfl
  | getJobId app => exact jobId_own described
  | getBinaryRankMap app => exact ranks_own described
  | getAttribsPath app => exact ⟨fun _ => trivial,fun _ => path_own described⟩
  | release app => exact Iff.rfl

def f58Digits : Bytes := ascii "123456789ABCDEFGHJKLMNPQRSTUVWXYZabcdefghijkmnopqrstuvwxyz"

def f58Numbers (id : Nat) : List Nat := if id = 0 then [0] else Nat.digits 58 id

def f58 (id : BitVec 64) : Bytes := 102 :: ((f58Numbers id.toNat).map fun digit => f58Digits.getD digit 0).reverse

theorem f58Numbers_value {id : Nat} : Nat.ofDigits 58 (f58Numbers id) = id := by
  unfold f58Numbers
  split
  · rename_i zero
    simp [zero,Nat.ofDigits]
  · exact Nat.ofDigits_digits 58 id

theorem f58Numbers_small {id : Nat} : ∀ digit ∈ f58Numbers id, digit < 58 := by
  intro digit inside
  unfold f58Numbers at inside
  split at inside
  · simp at inside
    omega
  · exact Nat.digits_lt_base (by decide) inside

theorem f58Digits_length : f58Digits.length = 58 := by decide

theorem f58_place (small : digit < 58) : f58Digits.idxOf (f58Digits.getD digit 0) = digit := by
  have apart : f58Digits.Nodup := by
    have ordered : f58Digits.Pairwise (fun first second => first.toNat < second.toNat) := isChain_iff_pairwise.mp (by decide)
    exact ordered.imp fun less same => absurd (congrArg UInt8.toNat same) (Nat.ne_of_lt less)
  have inside : digit < f58Digits.length := by
    rw [f58Digits_length]
    exact small
  rw [getD_eq_getElem _ _ inside,apart.idxOf_getElem]

theorem f58Numbers_read {id : Nat} : ((f58Numbers id).map fun digit => f58Digits.getD digit 0).map f58Digits.idxOf = f58Numbers id := by
  rw [map_map]
  conv_rhs => rw [← map_id (f58Numbers id)]
  exact map_congr_left fun digit inside => f58_place (f58Numbers_small digit inside)

theorem f58_injective {id other : BitVec 64} (same : f58 id = f58 other) : id = other := by
  have digits := reverse_injective (List.cons.inj same).2
  have numbers := congrArg (List.map f58Digits.idxOf) digits
  rw [f58Numbers_read,f58Numbers_read] at numbers
  have values := congrArg (Nat.ofDigits 58) numbers
  rw [f58Numbers_value,f58Numbers_value] at values
  exact BitVec.eq_of_toNat_eq values

def libFlux : LibFlux where
  encode id := .ok (f58 id)
  lettered id text done := by
    cases done
    rfl
  injective id other text first second := by
    cases first
    exact (f58_injective (Except.ok.inj second)).symm

def site : Site := ⟨libFlux,true,none,none,fun _ => false,loginNode⟩

theorem hosts_text : 0 ∉ ascii "hosts" := by decide
theorem ids_text : 0 ∉ ascii "ids" := by decide
theorem pids_text : 0 ∉ ascii "pids" := by decide
theorem executables_text : 0 ∉ ascii "executables" := by decide

def lone (id : BitVec 64) (binary : CStr) : Job :=
  ⟨id,0,.node noText [(⟨ascii "hosts",hosts_text⟩,array [.node (tioga 1) []]),
    (⟨ascii "ids",ids_text⟩,array [array [number 0,number 0]]),
    (⟨ascii "pids",pids_text⟩,array [array [number 100,number 0]]),
    (⟨ascii "executables",executables_text⟩,array [.node binary []])],none,none⟩

def firstApp : FluxApp := ⟨1,0,1,ascii "a",ascii "/tmp/jobtmp-0-f2"⟩

def secondApp : FluxApp := ⟨2,0,1,ascii "b",ascii "/tmp/jobtmp-0-f3"⟩

def programA : Job := lone 1 ⟨ascii "a",by decide⟩

def programB : Job := lone 2 ⟨ascii "b",by decide⟩

def twoJobs : List Call := [.create programA,.create programB]

theorem twoJobs_run : Process.start.run site twoJobs = ⟨some (ascii "f2"),none,[some firstApp,some secondApp]⟩ := by
  have first : newFluxApp site programA = .ok firstApp := by decide
  have second : newFluxApp site programB = .ok secondApp := by decide
  have text : encodeJobId site firstApp.jobId = .ok (ascii "f2") := by decide
  have quiet : programA.attachTrouble = none ∧ programB.attachTrouble = none := ⟨rfl,rfl⟩
  simp [twoJobs,Process.run,Process.step,Process.create,Process.start,first,second,once,text,quiet]

theorem second_job_misreported : ((Process.start.run site twoJobs).step site (.getJobId 1)).1 = .ok (.jobId (ascii "f2")) ∧
      encodeJobId site secondApp.jobId = .ok (ascii "f3") ∧ ¬ Independent site (twoJobs ++ [.getJobId 1]) := by
  have own : encodeJobId site secondApp.jobId = .ok (ascii "f3") := by decide
  have answer : ((Process.start.run site twoJobs).step site (.getJobId 1)).1 = .ok (.jobId (ascii "f2")) := by
    rw [twoJobs_run]
    rfl
  refine ⟨answer,own,fun independent => ?_⟩
  obtain ⟨text,encoded,same⟩ := independent twoJobs (.getJobId 1) [] rfl secondApp (by rw [twoJobs_run]; rfl)
  rw [own] at encoded
  rw [answer] at same
  cases encoded
  simp only [Except.ok.injEq,Answer.jobId.injEq] at same
  exact absurd same (by decide)

end CommonTools.Applications.FluxHistory
