import Mathlib.Data.List.GetD
import CommonTools.Library.Records
import CommonTools.FeDaemon.Wire

namespace CommonTools.Placement
open Records Numerals FeDaemon List Codec

abbrev RankPid := Int × Pid

def hostNameMax : Nat := 64

abbrev HostField := {bytes : Bytes // bytes.length = hostNameMax}

-- slurmLayoutFile_t, which the files of the other two workload managers share.
structure LayoutFile where
  host : HostField
  PEsHere : BitVec 32
  firstPE : BitVec 32
  deriving DecidableEq

def LayoutFile.codec : Codec LayoutFile :=
  ((array hostNameMax).pair (word.pair word)).via (fun entry => (entry.host,entry.PEsHere,entry.firstPE))
    (fun fields => ⟨fields.1,fields.2.1,fields.2.2⟩) fun _ => rfl

structure NodeLayout where
  hostname : CStr
  numPEs : Nat
  firstPE : Nat
  deriving DecidableEq

-- memcpy of a name into an array of zeros.
def hostField (hostname : Bytes) : HostField := ⟨(hostname ++ List.replicate hostNameMax 0).take hostNameMax,by simp⟩

def makeLayoutFileEntry (node : NodeLayout) : Except String LayoutFile :=
  if hostNameMax < node.hostname.1.length + 1 then .error "hostname too large for layout buffer"
  else .ok ⟨hostField node.hostname.1,BitVec.ofNat 32 node.numPEs,BitVec.ofNat 32 node.firstPE⟩

def createNodeLayoutFile (nodes : List NodeLayout) : Except String Bytes := do
  let entries ← nodes.mapM makeLayoutFileEntry
  return word.encode (BitVec.ofNat 32 nodes.length) ++ LayoutFile.codec.encodeAll entries

def createPIDListFile (pids : List Pid) : Bytes :=
  word.encode (BitVec.ofNat 32 pids.length) ++ word.encodeAll pids

-- How a node recognises its entry: the name of the node against the array of the
-- entry. What follows the name in the array is zeros.
structure HostTest where
  test : Bytes → Bytes → Bool
  padded : ∀ hostname name : CStr, name.1.length < hostNameMax → test hostname.1 (hostField name.1).1 = test hostname.1 name.1
  own : ∀ hostname : CStr, test hostname.1 hostname.1 = true

theorem hostField_short (short : name.length < hostNameMax) :
    (hostField name).1 = name ++ List.replicate (hostNameMax - name.length) 0 := by
  have whole : name.take hostNameMax = name := take_of_length_le (by omega)
  simp [hostField,take_append,whole]

theorem prefix_padded (hostname : CStr) (name : Bytes) (count : Nat) :
    hostname.1.isPrefixOf (name ++ List.replicate count 0) = hostname.1.isPrefixOf name := by
  obtain ⟨text,plain⟩ := hostname
  induction text generalizing name with
  | nil => rfl
  | cons b text ih =>
    have other : (b == 0) = false := beq_false_of_ne fun same => plain (same ▸ mem_cons_self)
    have rest := fun name => ih name fun inside => plain (mem_cons_of_mem b inside)
    cases name with
    | nil => cases count <;> simp [replicate_succ,isPrefixOf,other]
    | cons c name => simp only [cons_append,isPrefixOf,rest name]

theorem getD_padded {name : Bytes} {count i : Nat} : (name ++ List.replicate count 0).getD i 0 = name.getD i 0 := by
  rcases Nat.lt_or_ge i name.length with inside | outside
  · rw [getD_append _ _ _ _ inside]
  · rw [getD_append_right _ _ _ _ outside,getD_eq_default _ _ outside,getD_eq_getElem?_getD,
      getElem?_getD_replicate_default_eq]

def prefixTest : HostTest where
  test hostname name := hostname.isPrefixOf name
  padded hostname name short := by rw [hostField_short short,prefix_padded]
  own hostname := List.isPrefixOf_iff_prefix.mpr prefix_rfl

-- The entry is the name, or the name as the first part of a domain name.
def domainTest : HostTest where
  test hostname name := hostname.isPrefixOf name && !isAlnum (name.getD hostname.length 0)
  padded hostname name short := by rw [hostField_short short,prefix_padded,getD_padded]
  own hostname := by
    rw [getD_eq_default _ _ (Nat.le_refl _),List.isPrefixOf_iff_prefix.mpr prefix_rfl]
    rfl

section Reading
variable (isHere : HostTest) (hostname : CStr)

structure Layout where
  PEsHere : BitVec 32
  firstPE : BitVec 32
  deriving DecidableEq

-- A negative count is a size that calloc does not have.
def getLayout (bytes : Bytes) : Option Layout := do
  let (numNodes,file) ← word.freadOne ⟨bytes,0⟩
  if numNodes.toInt < 0 then none
  else
    let (layout,_) ← LayoutFile.codec.fread numNodes.toNat file
    let entry ← layout.find? fun entry => isHere.test hostname.1 entry.host.1
    return ⟨entry.PEsHere,entry.firstPE⟩

def getPids (layout : Layout) (bytes : Bytes) : Option (List Pid) := do
  let (numPids,file) ← word.freadOne ⟨bytes,0⟩
  if numPids.toInt < (layout.firstPE + layout.PEsHere).toInt then none
  else if layout.PEsHere.toInt < 0 then none
  else
    let file ← file.seek (layout.firstPE.toInt * word.size)
    let (pids,_) ← word.fread layout.PEsHere.toNat file
    return pids

def rankPids (layout : Layout) (pids : List Pid) : List RankPid :=
  pids.zipIdx.map fun pid => ((BitVec.ofNat 32 pid.2 + layout.firstPE).toInt,pid.1)

def findAppPids (layoutFile pidFile : Bytes) : Option (List RankPid) := do
  let layout ← getLayout isHere hostname layoutFile
  let pids ← getPids layout pidFile
  return rankPids layout pids

end Reading

def NodeLayout.entry (node : NodeLayout) : LayoutFile :=
  ⟨hostField node.hostname.1,BitVec.ofNat 32 node.numPEs,BitVec.ofNat 32 node.firstPE⟩

def NodeLayout.layout (node : NodeLayout) : Layout := ⟨BitVec.ofNat 32 node.numPEs,BitVec.ofNat 32 node.firstPE⟩

theorem makeEntries_fit {nodes : List NodeLayout} (fit : ∀ node ∈ nodes, node.hostname.1.length < hostNameMax) :
    nodes.mapM makeLayoutFileEntry = .ok (nodes.map NodeLayout.entry) := by
  induction nodes with
  | nil => rfl
  | cons node nodes ih =>
    have short : ¬ hostNameMax < node.hostname.1.length + 1 := by
      have := fit node mem_cons_self
      omega
    rw [mapM_cons,makeLayoutFileEntry,if_neg short,ih fun node inside => fit node (mem_cons_of_mem _ inside)]
    rfl

theorem makeEntries_ok {nodes : List NodeLayout}
    (made : nodes.mapM makeLayoutFileEntry = .ok entries) : ∀ node ∈ nodes, node.hostname.1.length < hostNameMax := by
  induction nodes generalizing entries with
  | nil => intro node inside; cases inside
  | cons node nodes ih =>
    rw [mapM_cons,makeLayoutFileEntry] at made
    by_cases long : hostNameMax < node.hostname.1.length + 1
    · rw [if_pos long] at made
      cases made
    · rw [if_neg long] at made
      cases rest : nodes.mapM makeLayoutFileEntry with
      | error message => rw [rest] at made; cases made
      | ok entries' =>
        intro other inside
        rcases mem_cons.mp inside with rfl | later
        · omega
        · exact ih rest other later

theorem createNodeLayoutFile_fit {nodes : List NodeLayout} (fit : ∀ node ∈ nodes, node.hostname.1.length < hostNameMax) :
    createNodeLayoutFile nodes =
      .ok (word.encode (BitVec.ofNat 32 nodes.length) ++ LayoutFile.codec.encodeAll (nodes.map NodeLayout.entry)) := by
  rw [createNodeLayoutFile,makeEntries_fit fit]
  rfl

theorem createNodeLayoutFile_ok {nodes : List NodeLayout} (made : createNodeLayoutFile nodes = .ok bytes) :
    ∀ node ∈ nodes, node.hostname.1.length < hostNameMax := by
  unfold createNodeLayoutFile at made
  cases entries : nodes.mapM makeLayoutFileEntry with
  | error message => rw [entries] at made; cases made
  | ok entries' => exact makeEntries_ok entries

end CommonTools.Placement
