import CommonTools.Library.Interleavings
import CommonTools.Library.Tallies
import CommonTools.Backend.Arguments

namespace CommonTools.Transfer.FileChecks
open OrderedMaps Tallies Interleavings Texts Backend List

section Checking
variable (daemonBinary : String) (access : String → Bool)

def usage : List String :=
  ["Usage: " ++ daemonBinary ++ " [OPTIONS]...",
    "Launch a program on a compute node. Chdir's to the toolhelper",
    "directory and add it to PATH and LD_LIBRARY_PATH. Sets optional",
    "specified variables in the environment of the process.",
    "",
    "\t-a, --apid      Application id",
    "\t-b, --binary    Binary file to execute",
    "\t-c, --clean     Terminate existing tool daemons and cleanup session",
    "\t-d, --directory Use named directory for CWD",
    "\t-e, --env       Specify an environment variable to set",
    "\t                The argument provided to this option must be issued",
    "\t                with var=val, for example: -e myVar=myVal",
    "\t-f, --file      If this file exists on the node, its path will be",
    "\t                printed to stdout",
    "\t-i, --inst      Instance of tool daemon. Used in conjunction with sessions",
    "\t-m, --manifest  Manifest tarball to extract/set as CWD if -d omitted",
    "\t-p, --path      PWD path where tool daemon should be started",
    "\t-t, --apath     Path where the pmi_attribs file can be found",
    "\t-l, --ldlibpath What to set as LD_LIBRARY_PATH",
    "\t-w, --wlm       Workload Manager in use",
    "\t    --debug     Turn on debug logging to a file. (STDERR/STDOUT to file)",
    "\t-h, --help      Display this text and exit"]

def printed : Bool → List (Getopt.Answer Flag) → List String
  | fileCheckMode,[] => if fileCheckMode then [""] else []
  | _,.unknown :: _ => usage daemonBinary
  | _,.option .help _ :: _ => usage daemonBinary
  | _,.option .file arg :: rest => (if access (arg.getD "") then [arg.getD ""] else []) ++ printed true rest
  | fileCheckMode,.option _ _ :: rest => printed fileCheckMode rest

def stdoutLines (argv : List String) : List String :=
  if argv.length < 2 then usage daemonBinary
  else printed daemonBinary access false (Getopt.scan longOpts shortOpts none argv.tail).answers

def checkerArgv (daemonPath : String) (paths : List String) : List String :=
  daemonPath :: paths.map fun path => "--file=" ++ path

theorem scan_files {paths : List String} : (Getopt.scan longOpts shortOpts none (paths.map fun path => "--file=" ++ path)).answers =
      paths.map fun path => .option .file (some path) := by
  induction paths with
  | nil => rfl
  | cons path paths ih =>
    have read : Getopt.element longOpts shortOpts ("--file=" ++ path) = .options [.option .file (some path)] none :=
      Getopt.element_value "file" rfl (by decide) path
    rw [map_cons,Getopt.scan_options read,ih]
    rfl

theorem printed_files : printed daemonBinary access mode (paths.map fun path => .option .file (some path)) =
      paths.filter access ++ if paths = [] then (if mode then [""] else []) else [""] := by
  induction paths generalizing mode with
  | nil => rfl
  | cons path paths ih =>
    rw [map_cons,printed,ih]
    by_cases present : access path = true <;> simp [present]

theorem stdoutLines_files (some : paths ≠ []) :
    stdoutLines daemonBinary access (checkerArgv daemonPath paths) = paths.filter access ++ [""] := by
  have long : ¬ (checkerArgv daemonPath paths).length < 2 := by
    have := length_pos_iff.mpr some
    simp only [checkerArgv,length_cons,length_map]
    omega
  rw [stdoutLines,if_neg long,checkerArgv,tail_cons,scan_files,printed_files,if_neg some]

end Checking

structure Tracking where
  result : OrderedMap String Unit
  pathCountMap : OrderedMap String Nat
  exit_count : Nat

def Tracking.start (num_nodes : Nat) : Tracking := ⟨.empty,.empty,num_nodes⟩

def receive (num_nodes : Nat) (tracking : Tracking) (line : String) : Tracking :=
  if line = "" then ⟨tracking.result,tracking.pathCountMap,tracking.exit_count - 1⟩
  else
    let pathCountMap := bump tracking.pathCountMap line
    ⟨if pathCountMap.find line = some num_nodes then tracking.result.insert line () else tracking.result,pathCountMap,
      tracking.exit_count⟩

-- Lines are read until every node has printed its empty one.
def readLines (receive : Tracking → String → Tracking) : List String → Tracking → Tracking
  | [],tracking => tracking
  | line :: rest,tracking => if 0 < tracking.exit_count then readLines receive rest (receive tracking line) else tracking

def filesOnAll (num_nodes : Nat) (output : List Char) : OrderedMap String Unit :=
  (readLines (receive num_nodes) (getlines [] output) (.start num_nodes)).result

-- The constructors refuse a job component without nodes and an empty proctable.
abbrev StepLayout (ν : Type) := {layouts : List (List ν) // layouts ≠ [] ∧ [] ∉ layouts}

abbrev Hosts (ν : Type) := {hosts : List ν // hosts ≠ []}

def StepLayout.nodes {ν : Type} (stepLayout : StepLayout ν) : List ν := stepLayout.1.flatten

-- The sum is kept in an int.
def Slurm.getNumHosts {ν : Type} (stepLayout : StepLayout ν) : Nat :=
  ((stepLayout.1.foldl (fun sum layout => (sum.signExtend 64 + BitVec.ofNat 64 layout.length).truncate 32)
    (0 : BitVec 32)).signExtend 64).toNat

def Slurm.checkFilesExist {ν : Type} (stepLayout : StepLayout ν) (output : List Char) : OrderedMap String Unit :=
  filesOnAll (Slurm.getNumHosts stepLayout) output

def Pals.checkFilesExist {ν : Type} (hosts : Hosts ν) (output : List Char) : OrderedMap String Unit :=
  filesOnAll hosts.1.length output

section Tracked
variable {num_nodes : Nat} {seen : List String} {tracking : Tracking}

structure Tracks (num_nodes : Nat) (seen : List String) (tracking : Tracking) : Prop where
  counts : ∀ line, line ≠ "" → (tracking.pathCountMap.find line).getD 0 = seen.count line
  result : ∀ line, tracking.result.find line = some () ↔ line ≠ "" ∧ num_nodes ≤ seen.count line

theorem tracks_start (nodes : 0 < num_nodes) : Tracks num_nodes [] (.start num_nodes) := by
  refine ⟨fun line _ => rfl,fun line => ?_⟩
  simp [Tracking.start,Nat.pos_iff_ne_zero.mp nodes]

theorem receive_tracks (tracks : Tracks num_nodes seen tracking) : Tracks num_nodes (seen ++ [line]) (receive num_nodes tracking line) := by
  unfold receive
  by_cases empty : line = ""
  · rw [if_pos empty]
    have others : ∀ other, other ≠ "" → (seen ++ [line]).count other = seen.count other := by
      intro other named
      simp [count_append,empty,Ne.symm named]
    refine ⟨fun other named => ?_,fun other => ?_⟩
    · rw [others other named]
      exact tracks.counts other named
    · rw [tracks.result]
      constructor
      · rintro ⟨named,enough⟩
        exact ⟨named,(others other named).symm ▸ enough⟩
      · rintro ⟨named,enough⟩
        exact ⟨named,others other named ▸ enough⟩
  · rw [if_neg empty]
    have counted := tracks.counts line empty
    have own : (bump tracking.pathCountMap line).find line = some (seen.count line + 1) := by simp [bump,counted]
    refine ⟨fun other named => ?_,fun other => ?_⟩
    · by_cases same : other = line
      · subst same
        simp [own]
      · have kept := tracks.counts other named
        simp [bump,same,Ne.symm same,count_append,kept]
    · dsimp only
      rw [own]
      by_cases same : other = line
      · subst same
        have before := tracks.result other
        by_cases reached : seen.count other + 1 = num_nodes
        · simp [reached,empty,count_append]
        · rw [if_neg (by simpa using reached),before]
          simp only [count_append,count_singleton_self]
          constructor
          · rintro ⟨named,enough⟩
            exact ⟨named,by omega⟩
          · rintro ⟨named,enough⟩
            exact ⟨named,by omega⟩
      · have kept := tracks.result other
        split <;> simp [same,kept,count_append,Ne.symm same]

theorem fold_tracks (tracks : Tracks num_nodes seen tracking) :
    Tracks num_nodes (seen ++ lines) (lines.foldl (receive num_nodes) tracking) := by
  induction lines generalizing seen tracking with
  | nil => simpa using tracks
  | cons line lines ih => simpa using ih (receive_tracks tracks)

theorem readLines_front (receive : Tracking → String → Tracking) (lines : List String) (tracking : Tracking) :
    ∃ k, readLines receive lines tracking = (lines.take k).foldl receive tracking := by
  induction lines generalizing tracking with
  | nil => exact ⟨0,rfl⟩
  | cons line lines ih =>
    rw [readLines]
    split
    · obtain ⟨k,read⟩ := ih (receive tracking line)
      exact ⟨k + 1,read⟩
    · exact ⟨0,rfl⟩

theorem readLines_all (ends : lines = [] ∨ lines.getLast? = some "") (waits : lines.count "" ≤ tracking.exit_count) :
    readLines (receive num_nodes) lines tracking = lines.foldl (receive num_nodes) tracking := by
  induction lines generalizing tracking with
  | nil => rfl
  | cons line lines ih =>
    have last := ends.resolve_left (cons_ne_nil _ _)
    have listed : "" ∈ line :: lines := mem_of_getLast? last
    have positive := count_pos_iff.mpr listed
    rw [readLines,if_pos (by omega),foldl_cons]
    apply ih
    · cases lines with
      | nil => exact .inl rfl
      | cons next lines => exact .inr (by simpa using last)
    · unfold receive
      by_cases empty : line = ""
      · simp [empty] at waits ⊢
        omega
      · simp [empty] at waits ⊢
        exact waits

theorem readLines_counted (nodes : 0 < num_nodes)
    (found : (readLines (receive num_nodes) lines (.start num_nodes)).result.find path = some ()) :
    path ≠ "" ∧ num_nodes ≤ lines.count path := by
  obtain ⟨k,read⟩ := readLines_front (receive num_nodes) lines (.start num_nodes)
  rw [read,(fold_tracks (tracks_start nodes)).result,nil_append] at found
  exact ⟨found.1,Nat.le_trans found.2 ((take_sublist _ _).count_le path)⟩

end Tracked

section Nodes
variable {ν : Type}

theorem extended_cut {x : BitVec 32} : (x.signExtend 64).setWidth 32 = x := by
  ext i inside
  simp [BitVec.getLsbD_signExtend,inside]
  omega

theorem hosts_fold {layouts : List (List ν)} {sum : BitVec 32} :
    layouts.foldl (fun sum layout => (sum.signExtend 64 + BitVec.ofNat 64 layout.length).truncate 32) sum =
      sum + BitVec.ofNat 32 layouts.flatten.length := by
  induction layouts generalizing sum with
  | nil => simp
  | cons layout layouts ih =>
    have turn : (sum.signExtend 64 + BitVec.ofNat 64 layout.length).truncate 32 = sum + BitVec.ofNat 32 layout.length := by
      rw [BitVec.truncate_eq_setWidth,BitVec.setWidth_add _ _ (by decide),extended_cut,BitVec.setWidth_ofNat_of_le (by decide)]
    rw [foldl_cons,turn,ih,flatten_cons,length_append,BitVec.ofNat_add,BitVec.add_assoc]

theorem getNumHosts_eq : Slurm.getNumHosts stepLayout = ((BitVec.ofNat 32 stepLayout.nodes.length).signExtend 64).toNat := by
  rw [Slurm.getNumHosts,hosts_fold]
  simp [StepLayout.nodes]

theorem getNumHosts_few (few : stepLayout.nodes.length < 2 ^ 31) : Slurm.getNumHosts stepLayout = stepLayout.nodes.length := by
  have positive : (BitVec.ofNat 32 stepLayout.nodes.length).msb = false := by
    rw [BitVec.msb_eq_decide]
    simp
    omega
  rw [getNumHosts_eq,BitVec.signExtend_eq_setWidth_of_msb_false positive]
  simp
  omega

theorem StepLayout.some_node (stepLayout : StepLayout ν) : stepLayout.nodes ≠ [] := by
  obtain ⟨layouts,some,running⟩ := stepLayout
  cases layouts with
  | nil => exact absurd rfl some
  | cons layout layouts =>
    intro none
    have first : layout = [] := (append_eq_nil_iff.mp none).1
    exact running (first ▸ mem_cons_self)

end Nodes

section Agreement
variable {ν : Type}

-- What is there on the nodes. access fails for the empty path.
structure Disks (ν : Type) where
  present : ν → String → Bool
  unnamed : ∀ node, present node "" = false

def members (paths : OrderedMap String Unit) : List String := paths.entries.map Prod.fst

def Prints (disks : Disks ν) (paths : OrderedMap String Unit) (node : ν) (lines : List String) : Prop :=
  ∃ found, found.Perm ((members paths).filter (disks.present node)) ∧ lines = found ++ [""]

-- The whole lines of all nodes, in any order that keeps each node's own.
def Combined (disks : Disks ν) (paths : OrderedMap String Unit) (nodes : List ν) (output : List String) : Prop :=
  ∃ outputs, List.Forall₂ (Prints disks paths) nodes outputs ∧ Merge outputs output

def OnAll (disks : Disks ν) (paths : OrderedMap String Unit) (nodes : List ν) (path : String) : Prop :=
  path ∈ members paths ∧ ∀ node ∈ nodes, disks.present node path = true

structure Exact (disks : Disks ν) (paths : OrderedMap String Unit) (nodes : List ν) (output : List String)
    (checkFilesExist : List Char → OrderedMap String Unit) : Prop where
  whole : ∀ path, (checkFilesExist (written output)).find path = some () ↔ OnAll disks paths nodes path
  cut : ∀ k path, (checkFilesExist (written (output.take k))).find path = some () → OnAll disks paths nodes path

variable {disks : Disks ν} {paths : OrderedMap String Unit} {nodes : List ν} {output : List String} {path : String}

theorem checker_prints (daemonBinary daemonPath : String) (some : members paths ≠ []) (node : ν) :
    Prints disks paths node (stdoutLines daemonBinary (disks.present node) (checkerArgv daemonPath (members paths))) :=
  ⟨_,.refl _,stdoutLines_files daemonBinary (disks.present node) some⟩

theorem prints_count (prints : Prints disks paths node lines) (named : path ≠ "") :
    lines.count path = if path ∈ members paths ∧ disks.present node path = true then 1 else 0 := by
  obtain ⟨found,perm,rfl⟩ := prints
  have once : ((members paths).filter (disks.present node)).Nodup := paths.keys_nodup.filter _
  rw [count_append,perm.count_eq,once.count]
  simp [Ne.symm named,mem_filter]

theorem prints_empty (prints : Prints disks paths node lines) : lines.count "" = 1 ∧ lines.getLast? = some "" := by
  obtain ⟨found,perm,rfl⟩ := prints
  have absent : "" ∉ found := fun inside => by
    have listed := (mem_filter.mp (perm.mem_iff.mp inside)).2
    rw [disks.unnamed node] at listed
    cases listed
  simp [count_append,count_eq_zero.mpr absent]

theorem combined_count (combined : Combined disks paths nodes output) (named : path ≠ "") :
    output.count path = nodes.countP fun node => decide (path ∈ members paths ∧ disks.present node path = true) := by
  obtain ⟨outputs,prints,merged⟩ := combined
  rw [merged.perm.count_eq]
  clear merged
  induction prints with
  | nil => rfl
  | cons here _ ih =>
    rw [flatten_cons,count_append,ih,prints_count here named,countP_cons,Nat.add_comm]
    simp

theorem combined_empty (combined : Combined disks paths nodes output) :
    output.count "" = nodes.length ∧ (output = [] ∨ output.getLast? = some "") := by
  obtain ⟨outputs,prints,merged⟩ := combined
  constructor
  · rw [merged.perm.count_eq]
    clear merged
    induction prints with
    | nil => rfl
    | cons here _ ih => rw [flatten_cons,count_append,ih,(prints_empty here).1,length_cons,Nat.add_comm]
  · refine merged.last fun stream inside => .inr ?_
    clear merged
    induction prints with
    | nil => cases inside
    | cons here _ ih =>
      rcases mem_cons.mp inside with rfl | inside
      · exact (prints_empty here).2
      · exact ih inside

theorem combined_all (combined : Combined disks paths nodes output) (some : nodes ≠ []) :
    path ≠ "" ∧ nodes.length ≤ output.count path ↔ OnAll disks paths nodes path := by
  constructor
  · rintro ⟨named,enough⟩
    rw [combined_count combined named] at enough
    have all := countP_eq_length.mp (Nat.le_antisymm countP_le_length enough)
    obtain ⟨node,inside⟩ := exists_mem_of_ne_nil _ some
    exact ⟨(of_decide_eq_true (all node inside)).1,fun other listed => (of_decide_eq_true (all other listed)).2⟩
  · rintro ⟨listed,everywhere⟩
    have named : path ≠ "" := by
      rintro rfl
      obtain ⟨node,inside⟩ := exists_mem_of_ne_nil _ some
      have present := everywhere node inside
      rw [disks.unnamed node] at present
      cases present
    refine ⟨named,?_⟩
    rw [combined_count combined named]
    exact le_of_eq (countP_eq_length.mpr fun node inside => decide_eq_true ⟨listed,everywhere node inside⟩).symm

theorem combined_free (free : ∀ path ∈ members paths, Without '\n' path) (combined : Combined disks paths nodes output) :
    ∀ line ∈ output, Without '\n' line := by
  intro line inside
  by_cases empty : line = ""
  · subst empty
    decide
  · have positive := count_pos_iff.mpr inside
    rw [combined_count combined empty,countP_pos_iff] at positive
    obtain ⟨_,_,listed⟩ := positive
    exact free line (of_decide_eq_true listed).1

theorem filesOnAll_exact (free : ∀ path ∈ members paths, Without '\n' path) (some : nodes ≠ [])
    (combined : Combined disks paths nodes output) : Exact disks paths nodes output (filesOnAll nodes.length) := by
  have lines := combined_free free combined
  have positive := length_pos_iff.mpr some
  have start := tracks_start positive
  constructor
  · intro path
    obtain ⟨empties,ends⟩ := combined_empty combined
    rw [filesOnAll,getlines_written lines,readLines_all ends (Nat.le_of_eq empties),(fold_tracks start).result]
    exact combined_all combined some
  · intro k path found
    have front : ∀ line ∈ output.take k, Without '\n' line := fun line inside => lines line (mem_of_mem_take inside)
    rw [filesOnAll,getlines_written front] at found
    obtain ⟨named,enough⟩ := readLines_counted positive found
    exact (combined_all combined some).mp ⟨named,Nat.le_trans enough ((take_sublist _ _).count_le path)⟩

end Agreement

def twoDisks : Disks Bool := ⟨fun node path => path = "/b" || node && path = "/a",by decide⟩

def twoPaths : OrderedMap String Unit := (OrderedMap.empty.insert "/a" ()).insert "/b" ()

def oneComponent : StepLayout Bool := ⟨[[true,false]],by decide,by decide⟩

theorem two_combined : Combined twoDisks twoPaths [true,false] ["/b","/a","","/b",""] := by
  refine ⟨[["/a","/b",""],["/b",""]],.cons ⟨_,.refl _,by decide⟩ (.cons ⟨_,.refl _,by decide⟩ .nil),?_⟩
  have ended : Merge [[],[]] ([] : List String) := .done (by simp)
  exact .next [["/a","/b",""]] [] "/b" (.next [] [[""]] "/a" (.next [["/b",""]] [] "" (.next [] [[]] "/b" (.next [] [[]] "" ended))))

def manyNodes (n : Nat) (some : n ≠ 0) : StepLayout Nat := ⟨[List.range n],cons_ne_nil _ _,fun empty =>
  some (range_eq_nil.mp (mem_singleton.mp empty).symm)⟩

def sharedDisks : Disks Nat := ⟨fun _ path => path = "/a",fun _ => by decide⟩

def onePath : OrderedMap String Unit := OrderedMap.empty.insert "/a" ()

theorem shared_combined (n : Nat) : Combined sharedDisks onePath (List.range n) (List.replicate n ["/a",""]).flatten := by
  refine ⟨_,?_,merge_flatten _⟩
  have prints : ∀ node, Prints sharedDisks onePath node ["/a",""] := fun _ => ⟨_,.refl _,rfl⟩
  have copies : List.replicate n ["/a",""] = (List.range n).map fun _ => ["/a",""] := by rw [map_const',length_range]
  rw [copies,forall₂_map_right_iff,forall₂_same]
  exact fun node _ => prints node

theorem shared_missed (some : n ≠ 0) (wrapped : n < Slurm.getNumHosts (manyNodes n some)) :
    ¬ Exact sharedDisks onePath (List.range n) (List.replicate n ["/a",""]).flatten (Slurm.checkFilesExist (manyNodes n some)) := by
  intro agreed
  have combined := shared_combined n
  have everywhere : OnAll sharedDisks onePath (List.range n) "/a" := ⟨by decide,fun _ _ => rfl⟩
  have found := (agreed.whole "/a").mpr everywhere
  have free := combined_free (by decide) combined
  rw [Slurm.checkFilesExist,filesOnAll,getlines_written free] at found
  have enough := (readLines_counted (by omega) found).2
  rw [combined_count combined (by decide)] at enough
  have most := countP_le_length (p := fun node => decide ("/a" ∈ members onePath ∧ sharedDisks.present node "/a" = true))
    (l := List.range n)
  rw [length_range] at most
  omega

end CommonTools.Transfer.FileChecks
