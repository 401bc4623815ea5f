import Mathlib.Data.List.Infix
import CommonTools.Transfer.FileChecks

namespace CommonTools.Transfer.FileChecks
open OrderedMaps Interleavings Texts Backend List

def versionWarning (line : String) : Bool := decide ("no version information".toList <:+: line.toList)

def Flux.receive (num_nodes : Nat) (tracking : Tracking) (line : String) : Tracking :=
  if line = "" then ⟨tracking.result,tracking.pathCountMap,tracking.exit_count - 1⟩
  else if versionWarning line then tracking
  else
    let pathCountMap := Tallies.bump tracking.pathCountMap line
    ⟨if pathCountMap.find line = some num_nodes then tracking.result.insert line () else tracking.result,pathCountMap,
      tracking.exit_count⟩

-- The broker's node is taken away where the job has others.
def Flux.numNodes (node_ids : List Int) : Nat :=
  if 1 < node_ids.length then node_ids.foldl (fun num_nodes node_id => if node_id = 0 then num_nodes - 1 else num_nodes) node_ids.length
  else node_ids.length

-- make_hostsPlacement leaves the node_id that a new element of its map has, and nothing
-- sets it later.
def Flux.nodeIds {ν : Type} (hosts : List ν) : List Int := hosts.map fun _ => 0

def Flux.checkFilesExist {ν : Type} (hosts : List ν) (output : List Char) : OrderedMap String Unit :=
  let num_nodes := Flux.numNodes (Flux.nodeIds hosts)
  (readLines (Flux.receive num_nodes) (getlines [] output) (.start num_nodes)).result

section Counting
variable {ν : Type}

theorem numNodes_zeros (count : Nat) (node_ids : List Int) (zeros : ∀ node_id ∈ node_ids, node_id = 0) :
    node_ids.foldl (fun num_nodes node_id => if node_id = 0 then num_nodes - 1 else num_nodes) count = count - node_ids.length := by
  induction node_ids generalizing count with
  | nil => rfl
  | cons node_id node_ids ih =>
    rw [foldl_cons,if_pos (zeros node_id mem_cons_self),ih _ fun other inside => zeros other (mem_cons_of_mem _ inside),
      length_cons]
    omega

theorem numNodes_hosts : Flux.numNodes (Flux.nodeIds hosts) = if hosts.length = 1 then 1 else 0 := by
  have zeros : ∀ node_id ∈ Flux.nodeIds hosts, node_id = 0 := fun node_id inside => by
    obtain ⟨_,_,same⟩ := mem_map.mp inside
    exact same.symm
  have length : (Flux.nodeIds hosts).length = hosts.length := length_map _
  rw [Flux.numNodes,numNodes_zeros _ _ zeros]
  split
  · rw [if_neg (by omega)]
    omega
  · split <;> omega

end Counting

section Single
variable {num_nodes : Nat} {tracking : Tracking} {seen : List String}

theorem receive_plain :
    Flux.receive num_nodes tracking line = if versionWarning line then tracking else receive num_nodes tracking line := by
  unfold Flux.receive receive
  by_cases empty : line = ""
  · subst empty
    have quiet : versionWarning "" = false := by decide
    simp [quiet]
  · simp [empty]

theorem fold_plain {lines : List String} : lines.foldl (Flux.receive num_nodes) tracking =
    (lines.filter fun line => !versionWarning line).foldl (receive num_nodes) tracking := by
  induction lines generalizing tracking with
  | nil => rfl
  | cons line lines ih =>
    rw [foldl_cons,receive_plain,ih]
    by_cases warned : versionWarning line = true <;> simp [warned]

theorem receive_open (named : line ≠ "") : (Flux.receive num_nodes tracking line).exit_count = tracking.exit_count := by
  unfold Flux.receive
  rw [if_neg named]
  split <;> rfl

theorem readLines_single (one : tracking.exit_count = 1) : (readLines (Flux.receive num_nodes) lines tracking).result =
      ((lines.takeWhile (· ≠ "")).foldl (Flux.receive num_nodes) tracking).result := by
  induction lines generalizing tracking with
  | nil => rfl
  | cons line lines ih =>
    rw [readLines,if_pos (by omega)]
    by_cases named : line = ""
    · subst named
      have closed : (Flux.receive num_nodes tracking "").exit_count = 0 := by simp [Flux.receive,one]
      have stopped : readLines (Flux.receive num_nodes) lines (Flux.receive num_nodes tracking "") =
          Flux.receive num_nodes tracking "" := by
        cases lines with
        | nil => rfl
        | cons next lines => rw [readLines,if_neg (by omega)]
      rw [stopped]
      simp [Flux.receive]
    · rw [ih ((receive_open named).trans one),takeWhile_cons_of_pos (by simpa using named),foldl_cons]

theorem single_result {lines : List String} : (readLines (Flux.receive 1) lines (.start 1)).result.find path = some () ↔
      path ∈ lines.takeWhile (· ≠ "") ∧ versionWarning path = false := by
  rw [readLines_single rfl,fold_plain,(fold_tracks (tracks_start Nat.one_pos)).result,nil_append,
    Nat.one_le_iff_ne_zero,← Nat.pos_iff_ne_zero,count_pos_iff,mem_filter,Bool.not_eq_true']
  refine ⟨fun found => found.2,fun found => ⟨?_,found⟩⟩
  have named := mem_takeWhile_imp found.1
  simpa using named

end Single

section Soundness
variable {ν : Type} (daemonBinary daemonPath : String) (disks : Disks ν) (paths : OrderedMap String Unit)

def checkerLines (node : ν) : List String :=
  getlines [] (written (stdoutLines daemonBinary (disks.present node) (checkerArgv daemonPath (members paths))))

def BrokerOutput (brokers : List ν) (output : List String) : Prop :=
  Merge (brokers.tail.map (checkerLines daemonBinary daemonPath disks paths)) output

-- Every path that is returned, and so every source that is linked and left out of the
-- archive, exists on each host of the job.
structure Sound (hosts : List ν) (output : List String) : Prop where
  returned : ∀ path, (Flux.checkFilesExist hosts (written output)).find path = some () →
    ∀ host ∈ hosts, disks.present host path = true
  linked : ∀ stageName (m : Manifest), sourceSet m = paths → ∀ dest source,
    Entry.link dest source ∈ fileEntries stageName m (members (Flux.checkFilesExist hosts (written output))) →
      ∀ host ∈ hosts, disks.present host source = true

variable {daemonBinary daemonPath disks paths}

theorem broker_free (merged : BrokerOutput daemonBinary daemonPath disks paths brokers output) : ∀ line ∈ output, Without '\n' line := by
  intro line inside
  obtain ⟨lines,listed,printed⟩ := mem_flatten.mp (merged.perm.mem_iff.mp inside)
  obtain ⟨node,_,rfl⟩ := mem_map.mp listed
  exact getlines_free not_mem_nil line printed

theorem link_duplicate (linked : Entry.link dest source ∈ fileEntries stageName m duplicates) : source ∈ duplicates := by
  obtain ⟨pair,_,found⟩ := mem_filterMap.mp linked
  obtain ⟨sourcePath,_,entry⟩ := Option.map_eq_some_iff.mp found
  split at entry
  · rename_i duplicate
    cases entry
    exact duplicate
  · cases entry

theorem sound_of_returned (returned : ∀ path, (Flux.checkFilesExist hosts (written output)).find path = some () →
      ∀ host ∈ hosts, disks.present host path = true) : Sound disks paths hosts output := by
  refine ⟨returned,fun stageName m _ dest source linked => returned source ?_⟩
  obtain ⟨row,listed,same⟩ := mem_map.mp (link_duplicate linked)
  rw [← same]
  exact (OrderedMap.find_mem row _).mpr listed

def firstLines (daemonBinary daemonPath : String) (disks : Disks ν) (paths : OrderedMap String Unit) (node : ν) : List String :=
  (checkerLines daemonBinary daemonPath disks paths node).takeWhile (· ≠ "")

theorem firstLines_files (some : members paths ≠ []) (free : ∀ path ∈ members paths, Without '\n' path) (node : ν) :
    firstLines daemonBinary daemonPath disks paths node = (members paths).filter (disks.present node) := by
  have named : ∀ path ∈ (members paths).filter (disks.present node), decide (path ≠ "") = true := by
    intro path inside
    refine decide_eq_true ?_
    rintro rfl
    have present := (mem_filter.mp inside).2
    rw [disks.unnamed node] at present
    cases present
  have lines : ∀ line ∈ (members paths).filter (disks.present node) ++ [""], Without '\n' line := by
    intro line inside
    rcases mem_append.mp inside with listed | ended
    · exact free line (mem_filter.mp listed).1
    · rw [mem_singleton.mp ended]
      decide
  rw [firstLines,checkerLines,stdoutLines_files _ _ some,getlines_written lines,takeWhile_append_of_pos named]
  simp

theorem sound_many (many : hosts.length ≠ 1) : Sound disks paths hosts output := by
  refine sound_of_returned fun path found => ?_
  have none : (readLines (Flux.receive 0) (getlines [] (written output)) (.start 0)) = .start 0 := by
    cases getlines [] (written output) <;> rfl
  unfold Flux.checkFilesExist at found
  rw [numNodes_hosts,if_neg many] at found
  dsimp only at found
  rw [none] at found
  cases found

end Soundness

def farDisks : Disks Nat := ⟨fun node path => node = 2 && path = "/a",fun _ => by simp⟩

theorem far_output : BrokerOutput "cti_be_daemon" "/tmp/cti_be_daemon" farDisks onePath [0,1,2] ["/a","",""] := by
  have lines : [0,1,2].tail.map (checkerLines "cti_be_daemon" "/tmp/cti_be_daemon" farDisks onePath) = [[""],["/a",""]] := by decide
  rw [BrokerOutput,lines]
  exact .next [[""]] [] "/a" (.next [] [[""]] "" (.next [[]] [] "" (.done (by simp))))

end CommonTools.Transfer.FileChecks
