import Mathlib.Data.List.Find
import CommonTools.Placement.Files

namespace CommonTools.Placement
open Records FeDaemon Codec
open List hiding after count lookup

theorem word_int (small : x < 2 ^ 31) : (BitVec.ofNat 32 x).toInt = x := by
  have value : (BitVec.ofNat 32 x).toNat = x := by
    rw [BitVec.toNat_ofNat]
    omega
  rw [BitVec.toInt_eq_toNat_of_lt (by omega),value]

theorem word_least : (BitVec.ofNat 32 (2 ^ 31)).toInt = - 2 ^ 31 := by decide

theorem read_header : Codec.word.freadOne ⟨Codec.word.encode x ++ after,0⟩ = some (x,⟨word.encode x ++ after,word.size⟩) := by
  have rest : (⟨word.encode x ++ after,0⟩ : Reading).rest = word.encode x ++ after := rfl
  rw [freadOne_encoded word rest]
  simp only [Nat.zero_add]

theorem header_rest : (⟨word.encode x ++ after,word.size⟩ : Reading).rest = after := by
  exact rest_between

theorem read_records (codec : Codec α) (x : BitVec 32) (values : List α) (inside : skip + count ≤ values.length) :
    ∃ file, codec.fread count ⟨word.encode x ++ codec.encodeAll values,word.size + skip * codec.size⟩ =
      some ((values.drop skip).take count,file) := by
  have read := codec.fread_slice (word.encode x) [] inside
  rw [append_nil] at read
  exact ⟨_,read⟩

section Host
variable (isHere : HostTest) (hostname : CStr)

def NodeLayout.isFor (node : NodeLayout) : Bool := isHere.test hostname.1 node.hostname.1

theorem find_entries (nodes : List NodeLayout) (fit : ∀ node ∈ nodes, node.hostname.1.length < hostNameMax) :
    (nodes.map NodeLayout.entry).find? (fun entry => isHere.test hostname.1 entry.host.1) =
      (nodes.find? (·.isFor isHere hostname)).map NodeLayout.entry := by
  rw [List.find?_map]
  congr 1
  exact List.find?_congr fun node inside => isHere.padded hostname node.hostname (fit node inside)

theorem getLayout_written (made : createNodeLayoutFile nodes = .ok bytes) :
    getLayout isHere hostname bytes = if (BitVec.ofNat 32 nodes.length).toInt < 0 then none
      else ((nodes.take (nodes.length % 2 ^ 32)).find? (·.isFor isHere hostname)).map NodeLayout.layout := by
  have fit := createNodeLayoutFile_ok made
  rw [createNodeLayoutFile_fit fit] at made
  cases made
  have count : (BitVec.ofNat 32 nodes.length).toNat = nodes.length % 2 ^ 32 := BitVec.toNat_ofNat ..
  have few : 0 + nodes.length % 2 ^ 32 ≤ (nodes.map NodeLayout.entry).length := by
    rw [length_map]
    omega
  obtain ⟨file,entries⟩ := read_records LayoutFile.codec (BitVec.ofNat 32 nodes.length) (nodes.map NodeLayout.entry) few
  rw [Nat.zero_mul,Nat.add_zero,drop_zero,← map_take] at entries
  have found := find_entries isHere hostname (nodes.take (nodes.length % 2 ^ 32)) fun node inside =>
    fit node (mem_of_mem_take inside)
  unfold getLayout
  rw [read_header]
  dsimp only [Option.bind_eq_bind,Option.bind_some]
  rw [count,entries]
  dsimp only [Option.bind_some]
  rw [found]
  cases (nodes.take (nodes.length % 2 ^ 32)).find? (·.isFor isHere hostname) <;> rfl

variable {isHere hostname} {nodes : List NodeLayout} {bytes : Bytes}

theorem getLayout_few (made : createNodeLayoutFile nodes = .ok bytes) (few : nodes.length < 2 ^ 31) :
    getLayout isHere hostname bytes = (nodes.find? (·.isFor isHere hostname)).map NodeLayout.layout := by
  rw [getLayout_written isHere hostname made,word_int few,if_neg (by omega),Nat.mod_eq_of_lt (by omega),take_length]

theorem getLayout_node (made : createNodeLayoutFile nodes = .ok bytes)
    (read : getLayout isHere hostname bytes = some layout) : ∃ node ∈ nodes, layout = node.layout := by
  rw [getLayout_written isHere hostname made] at read
  split at read
  · cases read
  · obtain ⟨node,found,rfl⟩ := Option.map_eq_some_iff.mp read
    exact ⟨node,mem_of_mem_take (mem_of_find?_eq_some found),rfl⟩

end Host

section Pids
variable {pids : List Pid} {node : NodeLayout}

theorem getPids_small (few : pids.length < 2 ^ 31) (inside : node.firstPE + node.numPEs ≤ pids.length) :
    getPids node.layout (createPIDListFile pids) = some ((pids.drop node.firstPE).take node.numPEs) := by
  have sum : (node.layout.firstPE + node.layout.PEsHere).toInt = (node.firstPE + node.numPEs : Nat) := by
    rw [← word_int (x := node.firstPE + node.numPEs) (by omega),BitVec.ofNat_add]
    rfl
  have first : node.layout.firstPE.toInt = node.firstPE := word_int (by omega)
  have here : node.layout.PEsHere.toInt = node.numPEs := word_int (by omega)
  have count : node.layout.PEsHere.toNat = node.numPEs := by
    have := BitVec.toNat_ofNat node.numPEs 32
    rwa [Nat.mod_eq_of_lt (by omega)] at this
  obtain ⟨file,read⟩ := read_records word (BitVec.ofNat 32 pids.length) pids inside
  have sought : (⟨createPIDListFile pids,word.size⟩ : Reading).seek (node.layout.firstPE.toInt * word.size) =
      some ⟨createPIDListFile pids,word.size + node.firstPE * word.size⟩ := by
    rw [first,Reading.seek,if_pos (by positivity)]
    rfl
  unfold getPids createPIDListFile
  rw [read_header]
  dsimp only [Option.bind_eq_bind,Option.bind_some]
  rw [word_int few,sum,if_neg (by omega),here,if_neg (by omega)]
  unfold createPIDListFile at sought
  rw [sought]
  dsimp only [Option.bind_some]
  rw [count,read]
  rfl

theorem decodeAll_length {codec : Codec α} : (codec.decodeAll count bytes).length = count := by
  induction count generalizing bytes with
  | zero => rfl
  | succ count ih => rw [decodeAll,length_cons,ih]

theorem getPids_checks (read : getPids layout (createPIDListFile pids) = some found) :
    (layout.firstPE + layout.PEsHere).toInt ≤ (BitVec.ofNat 32 pids.length).toInt ∧ 0 ≤ layout.PEsHere.toInt ∧
      found.length = layout.PEsHere.toNat := by
  unfold getPids createPIDListFile at read
  rw [read_header] at read
  dsimp only [Option.bind_eq_bind,Option.bind_some] at read
  split at read
  · cases read
  · split at read
    · cases read
    · obtain ⟨file,_,rest⟩ := Option.bind_eq_some_iff.mp read
      obtain ⟨⟨values,file'⟩,taken,same⟩ := Option.bind_eq_some_iff.mp rest
      cases same
      unfold fread at taken
      split at taken
      · cases taken
        exact ⟨by omega,by omega,decodeAll_length⟩
      · cases taken

-- With 2^31 processes or more there is a rank that no entry brings: the first one
-- that is no int, or rank 0 when the header has just become negative.
theorem large_missed (pids : List Pid) (many : 2 ^ 31 ≤ pids.length) : ∃ rank < pids.length, ∀ node : NodeLayout,
    node.firstPE + node.numPEs ≤ pids.length → ∀ found, getPids node.layout (createPIDListFile pids) = some found →
      ∀ pair ∈ rankPids node.layout found, pair.1 ≠ (rank : Int) := by
  rcases Nat.lt_or_ge (2 ^ 31) pids.length with more | exact
  · refine ⟨2 ^ 31,more,fun node _ found _ pair listed same => ?_⟩
    obtain ⟨pid,_,rfl⟩ := mem_map.mp listed
    have bound := BitVec.toInt_lt (x := BitVec.ofNat 32 pid.2 + node.layout.firstPE)
    omega
  · have count : pids.length = 2 ^ 31 := by omega
    refine ⟨0,by omega,fun node inside found read pair listed same => ?_⟩
    obtain ⟨bound,positive,length⟩ := getPids_checks read
    rw [count,word_least] at bound
    have sum : node.layout.firstPE + node.layout.PEsHere = BitVec.ofNat 32 (node.firstPE + node.numPEs) := (BitVec.ofNat_add ..).symm
    -- Only an entry that goes up to the last rank passes the check, and it starts late.
    have last : node.firstPE + node.numPEs = 2 ^ 31 := by
      by_contra less
      rw [sum,word_int (by omega)] at bound
      omega
    have started : 0 < node.firstPE := by
      by_contra zero
      have all : node.layout.PEsHere = BitVec.ofNat 32 (2 ^ 31) := congrArg (BitVec.ofNat 32) (by omega)
      rw [all,word_least] at positive
      omega
    obtain ⟨pid,numbered,rfl⟩ := mem_map.mp listed
    have early : pid.2 < node.numPEs := by
      have here : node.layout.PEsHere.toNat = node.numPEs % 2 ^ 32 := BitVec.toNat_ofNat ..
      have := (mem_zipIdx numbered).2.1
      omega
    have value : (BitVec.ofNat 32 pid.2 + node.layout.firstPE).toInt = (pid.2 + node.firstPE : Nat) := by
      rw [← word_int (x := pid.2 + node.firstPE) (by omega),BitVec.ofNat_add]
      rfl
    omega

end Pids

end CommonTools.Placement
