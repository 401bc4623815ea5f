import CommonTools.Library.Programs
import CommonTools.Transfer.Planned
import CommonTools.Transfer.Session

namespace CommonTools.Transfer
open OrderedMaps Plans Programs Manifest
open List hiding all

def World.grow (w : World) (mani : Nat) (m : Manifest) (taken : List Added) : World :=
  {w with manifests := w.manifests.set mani m,ledger := w.ledger ++ taken.map (mani,·)}

abbrev World.plan (w : World) (host : Host) (m : Manifest) (call : AddCall) : Plan Effect Added :=
  call.plan host w.session.sourcePaths m.isValid m.inst

def Whole (plan : AddCall → Plan Effect Added) : List AddCall → Prop
  | [] => True
  | call :: rest => match (plan call).outcome with
    | .ok _ => Whole plan rest
    | .error _ => records (plan call).effects = []

@[simp] theorem records_append {left right : List Effect} : records (left ++ right) = records left ++ records right := filterMap_append

theorem applied_inst (effects : List Effect) (m : Manifest) : (effects.foldl Manifest.apply m).inst = m.inst := by
  induction effects generalizing m with
  | nil => rfl
  | cons e rest ih => exact (ih (m.apply e)).trans (apply_inst m e)

theorem applied_isValid (effects : List Effect) (m : Manifest) : (effects.foldl apply m).isValid = m.isValid := by
  induction effects generalizing m with
  | nil => rfl
  | cons e rest ih => exact (ih (m.apply e)).trans (apply_isValid m e)

theorem addTo_absent (absent : w.manifests[mani]? = none) : addTo host mani call w = .error "manifest not owned by session" w := by
  unfold addTo; rw [absent]

theorem addTo_result (host : Host) (call : AddCall) (present : w.manifests[mani]? = some m) :
    addTo host mani call w =
      match (w.plan host m call).outcome with
      | .ok added => .ok () (w.grow mani ((w.plan host m call).effects.foldl apply m) [added])
      | .error message => .error message (w.grow mani ((w.plan host m call).effects.foldl apply m) []) := by
  have foreseen : call.perform host w.session.sourcePaths m = (w.plan host m call).run apply m := perform_foreseen m ⟨rfl,rfl⟩
  unfold addTo
  rw [present]
  simp only [foreseen,Plan.run]
  cases (w.plan host m call).outcome <;> simp [World.grow]

theorem grow_at {w : World} (m' : Manifest) (taken : List Added) (present : w.manifests[mani]? = some m) :
    (w.grow mani m' taken).manifests[mani]? = some m' := by
  have bound : mani < w.manifests.length := (List.getElem?_eq_some_iff.mp present).1
  simp [World.grow,bound]

-- A manifest after a row of adds, and what the adds that returned took in.
def filled (host : Host) (w : World) (calls : List AddCall) (m : Manifest) : Manifest :=
  (Plan.each (w.plan host m) calls).effects.foldl apply m

def gained (host : Host) (w : World) (calls : List AddCall) (m : Manifest) : List Added :=
  Plan.done (w.plan host m) calls

theorem adds_result (host : Host) (calls : List AddCall) (present : w.manifests[mani]? = some m) :
    calls.forM (addTo host mani) w =
      match (Plan.each (w.plan host m) calls).outcome with
      | .ok _ => .ok () (w.grow mani (filled host w calls m) (gained host w calls m))
      | .error message => .error message (w.grow mani (filled host w calls m) (gained host w calls m)) := by
  induction calls generalizing w m with
  | nil =>
    have same : w.grow mani m [] = w := by
      have bound := List.getElem?_eq_some_iff.mp present
      simp [World.grow,← bound.2]
    change EStateM.Result.ok PUnit.unit w = .ok PUnit.unit (w.grow mani m [])
    rw [same]
  | cons call rest ih =>
    have first := addTo_result host call present
    unfold filled gained
    cases ended : (w.plan host m call).outcome with
    | error message =>
      simp only [ended] at first
      rw [each_error ended]
      simp only [Plan.done,ended]
      exact bind_stopped first
    | ok added =>
      simp only [ended] at first
      -- The reads of the later calls are those of the first: only the files changed.
      have reads : (w.grow mani ((w.plan host m call).effects.foldl apply m) [added]).plan host
          ((w.plan host m call).effects.foldl apply m) = w.plan host m := by
        funext later
        simp only [World.plan,World.grow,applied_inst,applied_isValid]
      have grown := grow_at ((w.plan host m call).effects.foldl apply m) [added] present
      have rested := ih grown
      unfold filled gained at rested
      rw [reads] at rested
      rw [each_ok ended]
      simp only [Plan.done,ended,foldl_append]
      refine (bind_after first).trans (rested.trans ?_)
      cases (Plan.each (w.plan host m) rest).outcome <;> simp [World.grow,Except.map]

theorem whole_records (whole : Whole (w.plan host m) calls) :
    records (Plan.each (w.plan host m) calls).effects = (gained host w calls m).flatMap Added.records := by
  unfold gained
  induction calls with
  | nil => rfl
  | cons call rest ih =>
    cases ended : (w.plan host m call).outcome with
    | error message =>
      rw [each_error ended]
      simp only [Whole,ended] at whole
      simpa only [Plan.done,ended,flatMap_nil] using whole
    | ok added =>
      rw [each_ok ended]
      simp only [Whole,ended] at whole
      simp only [Plan.done,ended,records_append,ih whole,plan_records ended,flatMap_cons]

theorem whole_ok (added : (Plan.each plan calls).outcome = .ok all) : Whole plan calls := by
  induction calls generalizing all with
  | nil => trivial
  | cons call rest ih =>
    cases ended : (plan call).outcome with
    | error message => rw [each_error ended] at added; cases added
    | ok one =>
      rw [each_ok ended] at added
      simp only [Whole,ended]
      cases later : (Plan.each plan rest).outcome with
      | error message => rw [later] at added; cases added
      | ok others => exact ih later

def Session.enter (s : Session) (pair : String × String) : Session :=
  {s with folders := s.folders.add pair.1 pair.2}

def Session.register (s : Session) (pair : String × String) (source : String) : Session :=
  {s with folders := s.folders.add pair.1 pair.2,
          sourcePaths := s.sourcePaths.insert (archivePath pair.1 pair.2) source}

def fileKey (pair : String × String) : String := archivePath pair.1 pair.2

inductive MergeStep (host : Host) (newPaths : PathMap) (s : Session) (pair : String × String) :
    Option Bool → Session → Prop where
  | shipped (source : newPaths.find pair.2 = some path) (same : s.sourcePaths.find (fileKey pair) = some path) :
      MergeStep host newPaths s pair (some true) (s.enter pair)
  | fresh (source : newPaths.find pair.2 = some path) (unknown : s.sourcePaths.find (fileKey pair) = none)
      (real : host.realpath path = some canonical) :
      MergeStep host newPaths s pair (some false) (s.register pair canonical)
  | missing (source : newPaths.find pair.2 = none) : MergeStep host newPaths s pair none (s.enter pair)
  | conflict (source : newPaths.find pair.2 = some path) (known : s.sourcePaths.find (fileKey pair) = some prior)
      (differs : prior ≠ path) : MergeStep host newPaths s pair none (s.enter pair)
  | unreal (source : newPaths.find pair.2 = some path) (unknown : s.sourcePaths.find (fileKey pair) = none)
      (lost : host.realpath path = none) : MergeStep host newPaths s pair none (s.enter pair)

theorem mergeFile_step :
    (∃ s', mergeFile host newPaths acc pair s = .ok (acc ++ [pair]) s' ∧ MergeStep host newPaths s pair (some true) s') ∨
    (∃ s', mergeFile host newPaths acc pair s = .ok acc s' ∧ MergeStep host newPaths s pair (some false) s') ∨
    (∃ message s', mergeFile host newPaths acc pair s = .error message s' ∧ MergeStep host newPaths s pair none s') := by
  rw [mergeFile,modify_after,get_after]
  cases source : newPaths.find pair.2 with
  | none =>
    refine .inr (.inr ⟨"map::at",s.enter pair,?_,.missing source⟩)
    cases s.sourcePaths.find (archivePath pair.1 pair.2) <;> rfl
  | some path =>
    cases known : s.sourcePaths.find (archivePath pair.1 pair.2) with
    | some prior =>
      by_cases same : prior = path
      · subst same
        exact .inl ⟨s.enter pair,by simp only [isSameFile,decide_true,if_true]; rfl,.shipped source known⟩
      · refine .inr (.inr ⟨"tried to merge transfered file " ++ archivePath pair.1 pair.2 ++
          " but it was already in the session!",s.enter pair,?_,.conflict source known same⟩)
        simp only [isSameFile,same,decide_false,Bool.false_eq_true,if_false]
        rfl
    | none =>
      cases real : host.realpath path with
      | none => exact .inr (.inr ⟨"realpath failed.",s.enter pair,by simp only [real]; rfl,.unreal source known real⟩)
      | some canonical => exact .inr (.inl ⟨s.register pair canonical,by simp only [real]; rfl,.fresh source known real⟩)

inductive Merges (host : Host) (newPaths : PathMap) :
    Session → List (String × String) → List (String × String) → Session → Prop where
  | done : Merges host newPaths s [] [] s
  | shipped : MergeStep host newPaths s pair (some true) middle → Merges host newPaths middle rest removed s' →
      Merges host newPaths s (pair :: rest) (pair :: removed) s'
  | fresh : MergeStep host newPaths s pair (some false) middle → Merges host newPaths middle rest removed s' →
      Merges host newPaths s (pair :: rest) removed s'

inductive MergeFails (host : Host) (newPaths : PathMap) : Session → List (String × String) → Session → Prop where
  | here : MergeStep host newPaths s pair none s' → MergeFails host newPaths s (pair :: rest) s'
  | later : MergeStep host newPaths s pair (some known) middle → MergeFails host newPaths middle rest s' →
      MergeFails host newPaths s (pair :: rest) s'

theorem mergeFold_cases (host : Host) (newPaths : PathMap) (pairs acc : List (String × String)) (s : Session) :
    (∃ removed s', pairs.foldlM (mergeFile host newPaths) acc s = .ok (acc ++ removed) s' ∧ Merges host newPaths s pairs removed s') ∨
    (∃ message s', pairs.foldlM (mergeFile host newPaths) acc s = .error message s' ∧ MergeFails host newPaths s pairs s') := by
  induction pairs generalizing acc s with
  | nil => exact .inl ⟨[],s,by simp [pure,EStateM.pure],.done⟩
  | cons pair rest ih =>
    rcases mergeFile_step with ⟨s1,first,step⟩ | ⟨s1,first,step⟩ | ⟨message,s1,first,step⟩
    · rcases ih (acc ++ [pair]) s1 with ⟨removed,s',more,merged⟩ | ⟨message,s',more,failed⟩
      · refine .inl ⟨pair :: removed,s',bind_ok.mpr ⟨_,_,first,?_⟩,.shipped step merged⟩
        simpa using more
      · exact .inr ⟨message,s',bind_error.mpr (.inr ⟨_,_,first,more⟩),.later step failed⟩
    · rcases ih acc s1 with ⟨removed,s',more,merged⟩ | ⟨message,s',more,failed⟩
      · exact .inl ⟨removed,s',bind_ok.mpr ⟨_,_,first,more⟩,.fresh step merged⟩
      · exact .inr ⟨message,s',bind_error.mpr (.inr ⟨_,_,first,more⟩),.later step failed⟩
    · exact .inr ⟨message,s1,bind_error.mpr (.inl first),.here step⟩

theorem mergeTransfered_cases (host : Host) (newFolders : FoldersMap) (newPaths : PathMap) (s : Session) :
    (∃ removed s', mergeTransfered host newFolders newPaths s = .ok removed s' ∧ Merges host newPaths s newFolders.pairs removed s') ∨
    (∃ message s', mergeTransfered host newFolders newPaths s = .error message s' ∧ MergeFails host newPaths s newFolders.pairs s') :=
  mergeFold_cases host newPaths newFolders.pairs [] s

def Session.SameBut (s s' : Session) : Prop :=
  s' = {s with folders := s'.folders,sourcePaths := s'.sourcePaths}

theorem mergeStep_frame (step : MergeStep host newPaths s pair known s') : s.SameBut s' := by
  cases step <;> rfl

theorem sameBut_trans {s t u : Session} (one : s.SameBut t) (two : t.SameBut u) : s.SameBut u := by
  unfold Session.SameBut at one two ⊢
  rw [two,one]

inductive MergeRun (host : Host) (newPaths : PathMap) : Session → List (String × String) → Session → Prop where
  | done : MergeRun host newPaths s [] s
  | stopped : MergeStep host newPaths s pair none s' → MergeRun host newPaths s (pair :: rest) s'
  | onward : MergeStep host newPaths s pair (some known) middle → MergeRun host newPaths middle rest s' →
      MergeRun host newPaths s (pair :: rest) s'

theorem merges_run (merged : Merges host newPaths s pairs removed s') : MergeRun host newPaths s pairs s' := by
  induction merged with
  | done => exact .done
  | shipped step _ ih | fresh step _ ih => exact .onward step ih

theorem mergeFails_run (failed : MergeFails host newPaths s pairs s') : MergeRun host newPaths s pairs s' := by
  induction failed with
  | here step => exact .stopped step
  | later step _ ih => exact .onward step ih

theorem mergeRun_frame (run : MergeRun host newPaths s pairs s') : s.SameBut s' := by
  induction run with
  | done => rfl
  | stopped step => exact mergeStep_frame step
  | onward step _ ih => exact sameBut_trans (mergeStep_frame step) ih

theorem merges_frame (merged : Merges host newPaths s pairs removed s') : s.SameBut s' := mergeRun_frame (merges_run merged)

theorem mergeFails_frame (failed : MergeFails host newPaths s pairs s') : s.SameBut s' := mergeRun_frame (mergeFails_run failed)

def required (app : App) (w : World) : List AddCall :=
  if w.session.addRequirements then requirements app else []

def World.opened (w : World) (mani : Nat) : Session :=
  {w.session with addRequirements := false,manifests := w.session.manifests.erase mani}

def Session.extended (s : Session) (libPath : String) : Session :=
  if libPath ≠ "" then {s with ldLibraryPath := s.stagePath ++ "/" ++ libPath ++ ":" ++ s.ldLibraryPath} else s

def shipEntries (delivery : Delivery) (stageName : String) (kept : Manifest) : List Entry :=
  dirEntries stageName ++ fileEntries stageName kept (duplicateSourcePaths delivery kept)

def kept (removed : List (String × String)) (m : Manifest) : Manifest := removed.foldl Manifest.discard m.finalize

def archiveFile (stageName : String) (inst : Nat) : String := stageName ++ toString inst ++ ".tar"

def World.merged (w : World) (mani : Nat) (full : Manifest) (taken : List Added)
    (removed : List (String × String)) (s' : Session) : World :=
  {w.grow mani (kept removed full) taken with session := s'.extended full.ldLibraryOverrideFolder}

def World.delivered (w : World) (mani : Nat) (delivery : Delivery) (full : Manifest) (taken : List Added)
    (removed : List (String × String)) (s' : Session) : World :=
  {w.merged mani full taken removed s' with
    packages := w.packages ++ [⟨mani,archiveFile s'.stageName full.inst,
      shipEntries delivery s'.stageName (kept removed full)⟩]}

def World.started (w : World) (start : Start) : World :=
  {w with starts := w.starts ++ [start],session := {w.session with seqNum := w.session.seqNum + 1}}

def World.released (w : World) (mani : Nat) (m : Manifest) : World :=
  {w.grow mani m.finalize [] with session := {w.session with manifests := w.session.manifests.erase mani}}

-- The session owns the manifest, and there is something to ship: an empty one
-- is only dropped by a send, while an exec has put its daemon in.
structure Entered (w : World) (mani : Nat) (m : Manifest) (synchronous : Bool) : Prop where
  owned : mani ∈ w.session.manifests
  present : w.manifests[mani]? = some m
  shipping : synchronous = true → m.empty = false

-- Everything a send or exec call can do, by the step it gets to. `calls` are the
-- adds it makes itself; the flag tells whether it returns. `Args` is what the
-- started daemon is told.
inductive Outcome (host : Host) (w : World) (mani : Nat) (calls : List AddCall) (delivery : Delivery)
    (Args : Session → String → List DaemonArg → Prop) (synchronous : Bool) : Bool → World → Prop where
  | refused (unowned : mani ∉ w.session.manifests ∨ w.manifests[mani]? = none) :
      Outcome host w mani calls delivery Args synchronous false w
  | emptied (sending : synchronous = true) (owned : mani ∈ w.session.manifests)
      (present : w.manifests[mani]? = some m) (nothing : m.empty = true) :
      Outcome host w mani calls delivery Args synchronous true (w.released mani m)
  | unadded (entered : Entered w mani m synchronous)
      (threw : (Plan.each (w.plan host m) calls).outcome = .error message) :
      Outcome host w mani calls delivery Args synchronous false
        (w.grow mani (filled host w calls m) (gained host w calls m))
  | unmerged (entered : Entered w mani m synchronous)
      (added : (Plan.each (w.plan host m) calls).outcome = .ok all)
      (failed : MergeFails host (filled host w calls m).sourcePaths (w.opened mani)
        (filled host w calls m).folders.pairs s') :
      Outcome host w mani calls delivery Args synchronous false
        {w.grow mani (filled host w calls m).finalize (gained host w calls m) with session := s'}
  | undelivered (entered : Entered w mani m synchronous)
      (added : (Plan.each (w.plan host m) calls).outcome = .ok all)
      (merged : Merges host (filled host w calls m).sourcePaths (w.opened mani)
        (filled host w calls m).folders.pairs removed s') :
      Outcome host w mani calls delivery Args synchronous false
        (w.merged mani (filled host w calls m) (gained host w calls m) removed s')
  | unstarted (entered : Entered w mani m synchronous)
      (added : (Plan.each (w.plan host m) calls).outcome = .ok all)
      (merged : Merges host (filled host w calls m).sourcePaths (w.opened mani)
        (filled host w calls m).folders.pairs removed s') :
      Outcome host w mani calls delivery Args synchronous false
        (w.delivered mani delivery (filled host w calls m) (gained host w calls m) removed s')
  | started (entered : Entered w mani m synchronous)
      (added : (Plan.each (w.plan host m) calls).outcome = .ok all)
      (merged : Merges host (filled host w calls m).sourcePaths (w.opened mani)
        (filled host w calls m).folders.pairs removed s')
      (told : Args (s'.extended (filled host w calls m).ldLibraryOverrideFolder)
        (archiveFile s'.stageName (filled host w calls m).inst) args) :
      Outcome host w mani calls delivery Args synchronous true
        ((w.delivered mani delivery (filled host w calls m) (gained host w calls m) removed s').started ⟨args,synchronous⟩)

theorem verifyOwnership_owned (owned : mani ∈ w.session.manifests) : verifyOwnership mani w = .ok () w := by
  change (if mani ∈ w.session.manifests then pure () else throw _ : WorldM Unit) w = _
  rw [if_pos owned]; rfl

theorem verifyOwnership_unowned (unowned : mani ∉ w.session.manifests) :
    verifyOwnership mani w = .error "manifest not owned by session" w := by
  change (if mani ∈ w.session.manifests then pure () else throw _ : WorldM Unit) w = _
  rw [if_neg unowned]; rfl

theorem manifestAt_present (present : w.manifests[mani]? = some m) : manifestAt mani w = .ok m w := by
  rw [manifestAt,get_after,present]; rfl

theorem manifestAt_absent (absent : w.manifests[mani]? = none) : manifestAt mani w = .error "manifest not owned by session" w := by
  rw [manifestAt,get_after,absent]; rfl

theorem removeManifest_owned (owned : mani ∈ w.session.manifests) (present : w.manifests[mani]? = some m) :
    removeManifest mani w = .ok () (w.released mani m) := by
  refine bind_ok.mpr ⟨(),w,verifyOwnership_owned owned,?_⟩
  refine bind_ok.mpr ⟨m,w,manifestAt_present present,?_⟩
  simp [World.released,World.grow]
  rfl

theorem archiveOp_silent : Silent (archiveOp delivery op) := by
  intro w; unfold archiveOp; cases delivery.archive op <;> rfl

theorem succeed_silent : Silent (succeed outcome) := by
  intro w; cases outcome <;> rfl

theorem packArchive_silent (delivery : Delivery) (name : String) (entries : List Entry) : Silent (packArchive delivery name entries) :=
  silent_bind archiveOp_silent fun _ => silent_bind (silent_forM (fun _ => archiveOp_silent)) fun _ =>
    silent_bind archiveOp_silent fun _ => succeed_silent

theorem extendLibraryPath_ok : extendLibraryPath libPath w = .ok () {w with session := w.session.extended libPath} := by
  unfold extendLibraryPath Session.extended
  split <;> rfl

def shipMerged (host : Host) (delivery : Delivery) (mani : Nat) : WorldM String := do
  let kept ← mergeManifest host mani
  let stageName := (← get).session.stageName
  let archiveName := stageName ++ toString kept.inst ++ ".tar"
  let entries := dirEntries stageName ++ fileEntries stageName kept (duplicateSourcePaths delivery kept)
  packArchive delivery archiveName entries
  modify fun w => {w with packages := w.packages ++ [⟨mani,archiveName,entries⟩]}
  return archiveName

def World.unrequired (w : World) : World := {w with session := {w.session with addRequirements := false}}

theorem ship_parts :
    shipManifest host app delivery mani w =
      match (required app w).forM (addTo host mani) w with
      | .ok _ w' => shipMerged host delivery mani w'.unrequired
      | .error message w' => .error message w' := by
  have unfolded : shipManifest host app delivery mani w =
      (addRequired host app mani >>= fun _ => shipMerged host delivery mani) w := rfl
  rw [unfolded]
  cases flag : w.session.addRequirements with
  | false =>
    have nothing : addRequired host app mani w = .ok () w := by
      change (if w.session.addRequirements then _ else pure () : WorldM Unit) w = _
      rw [flag]; rfl
    have same : w.unrequired = w := by simp only [World.unrequired,← flag]
    change EStateM.bind _ _ w = _
    simp only [EStateM.bind,nothing,required,flag]
    change _ = shipMerged host delivery mani w.unrequired
    rw [same]
  | true =>
    have whole : addRequired host app mani w =
        ((requirements app).forM (addTo host mani) >>= fun _ => modify World.unrequired) w := by
      change (if w.session.addRequirements then _ else pure () : WorldM Unit) w = _
      rw [flag]; rfl
    change EStateM.bind _ _ w = _
    simp only [EStateM.bind,whole,required,flag,if_true]
    cases row : (requirements app).forM (addTo host mani) w with
    | ok value w' =>
      have both : ((requirements app).forM (addTo host mani) >>= fun _ => modify World.unrequired) w =
          .ok () w'.unrequired := bind_ok.mpr ⟨_,_,row,rfl⟩
      rw [both]
    | error message w' =>
      have both : ((requirements app).forM (addTo host mani) >>= fun _ => modify World.unrequired) w =
          .error message w' := bind_error.mpr (.inl row)
      rw [both]

theorem kept_inst (removed : List (String × String)) (m : Manifest) : (removed.foldl Manifest.discard m).inst = m.inst := by
  induction removed generalizing m with
  | nil => rfl
  | cons pair rest ih => exact ih (m.discard pair)

theorem extended_stageName {s : Session} : (s.extended libPath).stageName = s.stageName := by
  unfold Session.extended; split <;> rfl

theorem mergeManifest_cases (host : Host) (owned : mani ∈ w.session.manifests)
    (present : w.manifests[mani]? = some m) (settled : w.session.addRequirements = false) :
    (∃ message s', mergeManifest host mani w = .error message {w.grow mani m.finalize [] with session := s'} ∧
      MergeFails host m.sourcePaths (w.opened mani) m.folders.pairs s') ∨
    (∃ removed s', mergeManifest host mani w = .ok (kept removed m) (w.merged mani m [] removed s') ∧
      Merges host m.sourcePaths (w.opened mani) m.folders.pairs removed s') := by
  have taken := removeManifest_owned owned present
  have opened : w.opened mani = {w.session with manifests := w.session.manifests.erase mani} := by simp only [World.opened,← settled]
  rw [opened]
  have final : (w.released mani m).manifests[mani]? = some m.finalize := grow_at m.finalize [] present
  have fetched := manifestAt_present final
  rcases mergeTransfered_cases host m.folders m.sourcePaths {w.session with manifests := w.session.manifests.erase mani}
    with ⟨removed,s',ended,merged⟩ | ⟨message,s',ended,failed⟩
  · refine .inr ⟨removed,s',?_,merged⟩
    have done : onSession (mergeTransfered host m.folders m.sourcePaths) (w.released mani m) =
        .ok removed {w.released mani m with session := s'} := by
      simp only [onSession,World.released,ended]
    refine bind_ok.mpr ⟨_,_,taken,bind_ok.mpr ⟨_,_,fetched,bind_ok.mpr ⟨removed,_,done,?_⟩⟩⟩
    refine bind_ok.mpr ⟨(),_,rfl,bind_ok.mpr ⟨(),_,extendLibraryPath_ok,?_⟩⟩
    simp [World.merged,World.released,World.grow,kept,finalize,pure,EStateM.pure]
  · refine .inl ⟨message,s',?_,failed⟩
    have thrown : onSession (mergeTransfered host m.folders m.sourcePaths) (w.released mani m) =
        .error message {w.released mani m with session := s'} := by
      simp only [onSession,World.released,ended]
    exact bind_error.mpr (.inr ⟨_,_,taken,bind_error.mpr (.inr ⟨_,_,fetched,bind_error.mpr (.inl thrown)⟩)⟩)

theorem shipMerged_cases (host : Host) (delivery : Delivery) (owned : mani ∈ w.session.manifests)
    (present : w.manifests[mani]? = some m) (settled : w.session.addRequirements = false) :
    (∃ message s', shipMerged host delivery mani w = .error message {w.grow mani m.finalize [] with session := s'} ∧
      MergeFails host m.sourcePaths (w.opened mani) m.folders.pairs s') ∨
    (∃ removed s', Merges host m.sourcePaths (w.opened mani) m.folders.pairs removed s' ∧
      ((∃ message, shipMerged host delivery mani w = .error message (w.merged mani m [] removed s')) ∨ shipMerged host delivery mani w =
         .ok (archiveFile s'.stageName m.inst) (w.delivered mani delivery m [] removed s'))) := by
  rcases mergeManifest_cases host owned present settled with ⟨message,s',ended,failed⟩ | ⟨removed,s',ended,merged⟩
  · exact .inl ⟨message,s',bind_error.mpr (.inl ended),failed⟩
  · refine .inr ⟨removed,s',merged,?_⟩
    have stage : (w.merged mani m [] removed s').session.stageName = s'.stageName := extended_stageName
    have silent := packArchive_silent delivery (s'.stageName ++ toString (kept removed m).inst ++ ".tar")
      (shipEntries delivery s'.stageName (kept removed m))
    cases packed : packArchive delivery (s'.stageName ++ toString (kept removed m).inst ++ ".tar")
        (shipEntries delivery s'.stageName (kept removed m)) (w.merged mani m [] removed s') with
    | error message middle =>
      have same := silent_error silent packed
      subst same
      refine .inl ⟨message,bind_error.mpr (.inr ⟨_,_,ended,bind_error.mpr (.inr ⟨_,_,rfl,bind_error.mpr (.inl ?_)⟩)⟩)⟩
      simpa only [stage,shipEntries] using packed
    | ok value middle =>
      have same := silent_ok silent packed
      subst same
      refine .inr ?_
      refine bind_ok.mpr ⟨_,_,ended,bind_ok.mpr ⟨_,_,rfl,bind_ok.mpr ⟨_,_,by simpa only [stage,shipEntries] using packed,?_⟩⟩⟩
      have named : (kept removed m).inst = m.inst := kept_inst removed m.finalize
      simp only [stage,named]
      rfl

theorem apply_filled {m : Manifest} (some : m.empty = false) : (m.apply e).empty = false := by
  cases e with
  | recorded r => exact put_nonempty
  | overridden =>
    simp only [apply,useOverride]
    split <;> exact some

theorem applied_filled (some : m.empty = false ∨ records effects ≠ []) : (effects.foldl apply m).empty = false := by
  induction effects generalizing m with
  | nil => exact some.resolve_right (fun wrong => wrong rfl)
  | cons e rest ih =>
    apply ih
    cases e with
    | recorded r => exact .inl put_nonempty
    | overridden => exact some.imp apply_filled id

section Inverting
variable {host : Host} {app : App} {delivery : Delivery} {w : World} {mani : Nat}

theorem merged_after_adds {m : Manifest} (owned : mani ∈ w.session.manifests) (present : w.manifests[mani]? = some old) :
    (∃ message s', shipMerged host delivery mani (w.grow mani m taken).unrequired =
        .error message {w.grow mani m.finalize taken with session := s'} ∧
      MergeFails host m.sourcePaths (w.opened mani) m.folders.pairs s') ∨
    (∃ removed s', Merges host m.sourcePaths (w.opened mani) m.folders.pairs removed s' ∧
      ((∃ message, shipMerged host delivery mani (w.grow mani m taken).unrequired = .error message (w.merged mani m taken removed s')) ∨
       shipMerged host delivery mani (w.grow mani m taken).unrequired =
         .ok (archiveFile s'.stageName m.inst) (w.delivered mani delivery m taken removed s'))) := by
  have grown := grow_at m taken present
  have cases := shipMerged_cases host delivery (w := (w.grow mani m taken).unrequired) owned grown rfl
  simpa [World.unrequired,World.opened,World.merged,World.delivered,World.grow] using cases

theorem startDaemon_cases : (∃ message, startDaemon delivery args synchronous w = .error message w) ∨
    startDaemon delivery args synchronous w = .ok () (w.started ⟨args,synchronous⟩) := by
  unfold startDaemon
  cases answer : delivery.startDaemon with
  | none => exact .inr rfl
  | some message => exact .inl ⟨message,rfl⟩

def Concludes (host : Host) (w : World) (mani : Nat) (calls : List AddCall) (delivery : Delivery)
    (Args : Session → String → List DaemonArg → Prop) (synchronous : Bool) (result : EStateM.Result String World Unit) : Prop :=
  Outcome host w mani calls delivery Args synchronous (decide (Returned result)) (after result)

theorem concluded {calls : List AddCall} {act : WorldM Unit} (rest : String → WorldM Unit) {Args : Session → String → List DaemonArg → Prop}
    (entered : Entered w mani m synchronous)
    (threw : ∀ message w', calls.forM (addTo host mani) w = .error message w' → act w = .error message w')
    (went : ∀ w', calls.forM (addTo host mani) w = .ok () w' → act w = (shipMerged host delivery mani >>= rest) w'.unrequired)
    (tail : ∀ archiveName w', (∃ message, rest archiveName w' = .error message w') ∨
      ∃ args, Args w'.session archiveName args ∧ rest archiveName w' = .ok () (w'.started ⟨args,synchronous⟩)) :
    Concludes host w mani calls delivery Args synchronous (act w) := by
  have row := adds_result host calls entered.present
  cases added : (Plan.each (w.plan host m) calls).outcome with
  | error message =>
    simp only [added] at row
    rw [threw _ _ row]
    exact .unadded entered added
  | ok all =>
    simp only [added] at row
    rcases merged_after_adds entered.owned entered.present
      with ⟨message,s',ended,failed⟩ | ⟨removed,s',merged,⟨message,ended⟩ | ended⟩
    · rw [(went _ row).trans (bind_error.mpr (.inl ended))]
      exact .unmerged entered added failed
    · rw [(went _ row).trans (bind_error.mpr (.inl ended))]
      exact .undelivered entered added merged
    · rcases tail _ (w.delivered mani delivery (filled host w calls m) (gained host w calls m) removed s') with
        ⟨message,stopped⟩ | ⟨args,told,started⟩
      · rw [(went _ row).trans (bind_error.mpr (.inr ⟨_,_,ended,stopped⟩))]
        exact .unstarted entered added merged
      · rw [(went _ row).trans (bind_ok.mpr ⟨_,_,ended,started⟩)]
        exact .started entered added merged told

def SendTold (app : App) (s : Session) (archiveName : String) (args : List DaemonArg) : Prop :=
  args = sendArgs app s archiveName

def ExecTold (app : App) (daemonArgs envVars : Option (List String)) (s : Session) (archiveName : String)
    (args : List DaemonArg) : Prop :=
  ∃ binaryName, args = execArgs app s archiveName binaryName daemonArgs envVars

theorem sendManifest_outcome {host : Host} {app : App} {delivery : Delivery} {mani : Nat} {w : World} :
    Concludes host w mani (required app w) delivery (SendTold app) true (sendManifest host app delivery mani w) := by
  by_cases owned : mani ∈ w.session.manifests
  swap
  · have ended : sendManifest host app delivery mani w = .error "manifest not owned by session" w :=
      bind_error.mpr (.inl (verifyOwnership_unowned owned))
    rw [ended]; exact .refused (.inl owned)
  cases present : w.manifests[mani]? with
  | none =>
    have ended : sendManifest host app delivery mani w = .error "manifest not owned by session" w :=
      bind_error.mpr (.inr ⟨_,_,verifyOwnership_owned owned,bind_error.mpr (.inl (manifestAt_absent present))⟩)
    rw [ended]; exact .refused (.inr present)
  | some m =>
    have opening : sendManifest host app delivery mani w =
        (if m.empty then removeManifest mani else do
          let archiveName ← shipManifest host app delivery mani
          startDaemon delivery (sendArgs app (← get).session archiveName) true) w := by
      change EStateM.bind _ _ w = _
      simp only [EStateM.bind,verifyOwnership_owned owned]
      change EStateM.bind _ _ w = _
      simp only [EStateM.bind,manifestAt_present present]
    cases nothing : m.empty with
    | true =>
      rw [opening,nothing,if_pos rfl,removeManifest_owned owned present]
      exact .emptied rfl owned present nothing
    | false =>
      rw [nothing] at opening
      refine concluded (fun archiveName => do startDaemon delivery (sendArgs app (← get).session archiveName) true)
        ⟨owned,present,fun _ => nothing⟩ ?_ ?_ ?_
      · intro message w' row
        rw [opening]
        refine bind_error.mpr (.inl ?_)
        rw [ship_parts,row]
      · intro w' row
        rw [opening]
        change EStateM.bind _ _ w = EStateM.bind _ _ _
        unfold EStateM.bind
        rw [ship_parts,row]
      · intro archiveName w'
        rcases startDaemon_cases with ⟨message,stopped⟩ | started
        · exact .inl ⟨message,bind_error.mpr (.inr ⟨_,_,rfl,stopped⟩)⟩
        · exact .inr ⟨_,rfl,bind_ok.mpr ⟨_,_,rfl,started⟩⟩

theorem locate_silent : Silent (locate answer message) := by
  intro w; cases answer <;> rfl

theorem checkEnvStrings_silent : Silent (checkEnvStrings envVars) := by
  intro w
  unfold checkEnvStrings
  cases (envVars.getD []).find? (fun var => !validEnvString var) <;> rfl

def execStarted (host : Host) (app : App) (delivery : Delivery) (daemon : String)
    (daemonArgs envVars : Option (List String)) (archiveName : String) : WorldM Unit := do
  let filePath ← locate (host.findPath daemon) (daemon ++ ": Could not locate in PATH.")
  let binaryName ← locate (host.basename filePath) ("basename failed on " ++ filePath)
  checkEnvStrings envVars
  startDaemon delivery (execArgs app (← get).session archiveName binaryName daemonArgs envVars) false

theorem execStarted_cases (host : Host) (app : App) (daemon : String) (daemonArgs envVars : Option (List String))
    (archiveName : String) (w : World) :
    (∃ message, execStarted host app delivery daemon daemonArgs envVars archiveName w = .error message w) ∨
    (∃ args, ExecTold app daemonArgs envVars w.session archiveName args ∧
      execStarted host app delivery daemon daemonArgs envVars archiveName w = .ok () (w.started ⟨args,false⟩)) := by
  cases found : locate (host.findPath daemon) (daemon ++ ": Could not locate in PATH.") w with
  | error message middle =>
    obtain rfl := silent_error locate_silent found
    exact .inl ⟨message,bind_error.mpr (.inl found)⟩
  | ok filePath middle =>
    obtain rfl := silent_ok locate_silent found
    cases named : locate (host.basename filePath) ("basename failed on " ++ filePath) middle with
    | error message last =>
      obtain rfl := silent_error locate_silent named
      exact .inl ⟨message,bind_error.mpr (.inr ⟨_,_,found,bind_error.mpr (.inl named)⟩)⟩
    | ok binaryName last =>
      obtain rfl := silent_ok locate_silent named
      cases checked : checkEnvStrings envVars last with
      | error message final =>
        obtain rfl := silent_error checkEnvStrings_silent checked
        exact .inl ⟨message,bind_error.mpr (.inr ⟨_,_,found,bind_error.mpr (.inr ⟨_,_,named,
          bind_error.mpr (.inl checked)⟩)⟩)⟩
      | ok value final =>
        obtain rfl := silent_ok checkEnvStrings_silent checked
        rcases startDaemon_cases with
          ⟨message,stopped⟩ | started
        · exact .inl ⟨message,bind_error.mpr (.inr ⟨_,_,found,bind_error.mpr (.inr ⟨_,_,named,
            bind_error.mpr (.inr ⟨_,_,checked,bind_error.mpr (.inr ⟨_,_,rfl,stopped⟩)⟩)⟩)⟩)⟩
        · exact .inr ⟨_,⟨binaryName,rfl⟩,bind_ok.mpr ⟨_,_,found,bind_ok.mpr ⟨_,_,named,
            bind_ok.mpr ⟨_,_,checked,bind_ok.mpr ⟨_,_,rfl,started⟩⟩⟩⟩⟩

theorem added_binary (present : w.manifests[mani]? = some m) (first : addTo host mani (.binary daemon .Stage) w = .ok () w') :
    ∃ m', w'.manifests[mani]? = some m' ∧ m'.empty = false ∧ w'.session = w.session := by
  have result := addTo_result host (.binary daemon .Stage) present
  rw [first] at result
  split at result
  · rename_i added ended
    cases result
    refine ⟨_,grow_at _ _ present,applied_filled (.inr ?_),rfl⟩
    rw [plan_records ended]
    exact cons_ne_nil _ _
  · cases result

theorem execManifest_outcome (host : Host) (app : App) (delivery : Delivery) (mani : Nat) (daemon : String)
    (daemonArgs envVars : Option (List String)) (w : World) : Concludes host w mani (.binary daemon .Stage :: required app w) delivery
      (ExecTold app daemonArgs envVars) false (execManifest host app delivery mani daemon daemonArgs envVars w) := by
  by_cases owned : mani ∈ w.session.manifests
  swap
  · have ended : execManifest host app delivery mani daemon daemonArgs envVars w =
        .error "manifest not owned by session" w := bind_error.mpr (.inl (verifyOwnership_unowned owned))
    rw [ended]; exact .refused (.inl owned)
  cases present : w.manifests[mani]? with
  | none =>
    have ended : execManifest host app delivery mani daemon daemonArgs envVars w =
        .error "manifest not owned by session" w :=
      bind_error.mpr (.inr ⟨_,_,verifyOwnership_owned owned,bind_error.mpr (.inl (addTo_absent present))⟩)
    rw [ended]; exact .refused (.inr present)
  | some m =>
    -- The daemon itself has just been added, so there is always something to ship.
    have opening : ∀ w1, addTo host mani (.binary daemon .Stage) w = .ok () w1 →
        execManifest host app delivery mani daemon daemonArgs envVars w =
          (shipManifest host app delivery mani >>= execStarted host app delivery daemon daemonArgs envVars) w1 ∧
        required app w1 = required app w := by
      intro w1 first
      obtain ⟨m1,present1,filled1,session1⟩ := added_binary present first
      refine ⟨?_,by simp only [required,session1]⟩
      change EStateM.bind _ _ w = _
      simp only [EStateM.bind,verifyOwnership_owned owned]
      change EStateM.bind _ _ w = _
      simp only [EStateM.bind,first]
      change EStateM.bind _ _ w1 = _
      simp only [EStateM.bind,manifestAt_present present1,filled1]
      rfl
    refine concluded (execStarted host app delivery daemon daemonArgs envVars) ⟨owned,present,nofun⟩ ?_ ?_
      (execStarted_cases host app daemon daemonArgs envVars)
    · intro message w' row
      rcases bind_error.mp row with first | ⟨_,w1,first,later⟩
      · exact bind_error.mpr (.inr ⟨_,_,verifyOwnership_owned owned,bind_error.mpr (.inl first)⟩)
      · obtain ⟨same,needs⟩ := opening w1 first
        rw [same]
        refine bind_error.mpr (.inl ?_)
        rw [ship_parts,needs,later]
    · intro w' row
      obtain ⟨_,w1,first,later⟩ := bind_ok.mp row
      obtain ⟨same,needs⟩ := opening w1 first
      rw [same]
      change EStateM.bind _ _ w1 = EStateM.bind _ _ _
      unfold EStateM.bind
      rw [ship_parts,needs,later]

theorem ended_well (conclusion : Concludes host w mani calls delivery Args synchronous result) (returned : Returned result) :
    Outcome host w mani calls delivery Args synchronous true (after result) := by
  unfold Concludes at conclusion
  rwa [decide_eq_true returned] at conclusion

theorem outcome_owned (outcome : Outcome host w mani calls delivery Args synchronous true w') : mani ∈ w.session.manifests := by
  cases outcome with
  | emptied sending owned present nothing => exact owned
  | started entered added merged told => exact entered.owned

theorem addTo_outcome (present : w.manifests[mani]? = some m) :
    after (addTo host mani call w) = w.grow mani (filled host w [call] m) (gained host w [call] m) := by
  have row := adds_result host [call] present
  have single : addTo host mani call w = [call].forM (addTo host mani) w := by
    change addTo host mani call w = EStateM.bind _ _ w
    unfold EStateM.bind
    cases addTo host mani call w <;> rfl
  rw [single,row]
  cases (Plan.each (w.plan host m) [call]).outcome <;> rfl

end Inverting

def Call.next (host : Host) (app : App) (w : World) (call : Call) : World := after (call.perform host app w)

def Call.target : Call → Option Nat
  | .createManifest => none
  | .add mani _ => some mani
  | .sendManifest _ mani => some mani
  | .execManifest _ mani _ _ _ => some mani

def Call.adds (app : App) (w : World) : Call → List AddCall
  | .createManifest => []
  | .add _ call => [call]
  | .sendManifest _ _ => required app w
  | .execManifest _ _ daemon _ _ => .binary daemon .Stage :: required app w

def World.created (w : World) : World :=
  {w with session := {w.session with manifestCnt := w.session.manifestCnt + 1,
                                     manifests := w.manifests.length :: w.session.manifests},
          manifests := w.manifests ++ [fresh (w.session.manifestCnt + 1)]}

inductive Moves (host : Host) (app : App) (w : World) : Call → World → Prop where
  | created : Moves host app w .createManifest w.created
  | absent (absent : w.manifests[mani]? = none) : Moves host app w (.add mani call) w
  | added (present : w.manifests[mani]? = some m) :
      Moves host app w (.add mani call) (w.grow mani (filled host w [call] m) (gained host w [call] m))
  | sent (outcome : Outcome host w mani (required app w) delivery
        (SendTold app) true returned w') :
      Moves host app w (.sendManifest delivery mani) w'
  | ran (outcome : Outcome host w mani (.binary daemon .Stage :: required app w) delivery
        (ExecTold app daemonArgs envVars) false returned w') :
      Moves host app w (.execManifest delivery mani daemon daemonArgs envVars) w'

theorem next_moves (host : Host) (app : App) (w : World) (call : Call) : Moves host app w call (call.next host app w) := by
  cases call with
  | createManifest => exact .created
  | add mani call =>
    cases present : w.manifests[mani]? with
    | none =>
      have same : Call.next host app w (.add mani call) = w := by
        change after (addTo host mani call w) = w
        rw [addTo_absent present]; rfl
      rw [same]; exact .absent present
    | some m =>
      change Moves host app w (.add mani call) (after (addTo host mani call w))
      rw [addTo_outcome present]
      exact .added present
  | sendManifest delivery mani => exact .sent sendManifest_outcome
  | execManifest delivery mani daemon daemonArgs envVars =>
    exact .ran (execManifest_outcome host app delivery mani daemon daemonArgs envVars w)

-- A host that finds every path as it is given, and a delivery in which nothing
-- fails: the concrete runs are made on these.
def plainName (path : String) : String := String.ofList (path.toList.reverse.takeWhile (· ≠ '/')).reverse

def plainHost (dependencies : String → Option (List String)) : Host :=
  ⟨some,some,fun path => some (plainName path),some,fun _ => true,dependencies⟩

def plainApp : App := ⟨"job","/tool","",[],[],[],[],[],false⟩

def plainDelivery : Delivery := ⟨some "0",fun _ => none,fun _ => none,none,none⟩

def plainRun (dependencies : String → Option (List String)) (calls : List Call) : World :=
  calls.foldl (Call.next (plainHost dependencies) plainApp) (World.start plainApp "stage" "wlm")

end CommonTools.Transfer
