import CommonTools.FeDaemon.Ranks
import CommonTools.Placement.Reports

namespace CommonTools.Placement.GenericSsh
open OrderedMaps Occurrences FeDaemon List

def dot : UInt8 := 46

-- Up to the first dot, for launchers that give full domain names.
def baseHostname (hostname : CStr) : CStr :=
  ⟨hostname.1.takeWhile (· ≠ dot),fun inside => hostname.2 ((takeWhile_sublist _).subset inside)⟩

structure HostNode where
  hostname : CStr
  pids : List Pid
  firstPE : Nat
  deriving DecidableEq

def HostNode.push (pid : Pid) (node : HostNode) : HostNode := {node with pids := node.pids ++ [pid]}

def HostNode.node (node : HostNode) : NodeLayout := ⟨node.hostname,node.pids.length,node.firstPE⟩

structure StepLayout where
  nodes : List HostNode
  hostNidMap : OrderedMap CStr Nat
  peCount : Nat

def addProc (layout : StepLayout) (proc : CStr × Pid) : StepLayout :=
  let base_hostname := baseHostname proc.1
  match layout.hostNidMap.find base_hostname with
  | none =>
    let nid := layout.nodes.length
    let host : HostNode := ⟨base_hostname,[],layout.peCount⟩
    ⟨(layout.nodes ++ [host]).modify nid (HostNode.push proc.2),layout.hostNidMap.insert base_hostname nid,
      layout.peCount + 1⟩
  | some nid => ⟨layout.nodes.modify nid (HostNode.push proc.2),layout.hostNidMap,layout.peCount + 1⟩

def fetchStepLayout (procTable : Procs) : List HostNode := (procTable.foldl addProc ⟨[],.empty,0⟩).nodes

def createNodeLayoutFile (stepLayout : List HostNode) : Except String Bytes :=
  Placement.createNodeLayoutFile (stepLayout.map HostNode.node)

-- A node whose files cannot be used takes what its pmi_attribs file says.
def findAppPids (pmiAttribs : Option (List RankPid)) (hostname : CStr) (layoutFile pidFile : Bytes) :
    Option (List RankPid) :=
  (Placement.findAppPids prefixTest hostname layoutFile pidFile).or pmiAttribs

def based (procTable : Procs) : Procs := procTable.map fun proc => (baseHostname proc.1,proc.2)

section Layout
variable {done : Procs} {layout : StepLayout}

def hosts (done : Procs) : List CStr := (done.map Prod.fst).eraseDups

def gathered (done : Procs) (host : CStr) : HostNode :=
  ⟨host,(done.filter fun proc => decide (proc.1 = host)).map Prod.snd,(done.map Prod.fst).idxOf host⟩

structure Sighted (done : Procs) (layout : StepLayout) : Prop where
  nodes : layout.nodes = (hosts done).map (gathered done)
  nids : ∀ host nid, layout.hostNidMap.find host = some nid ↔ (hosts done)[nid]? = some host
  peCount : layout.peCount = done.length

theorem gathered_other (known : host ∈ done.map Prod.fst) (other : name ≠ host) :
    gathered (done ++ [(name,pid)]) host = gathered done host := by
  simp [gathered,idxOf_append_of_mem known,other]

theorem gathered_new (unknown : host ∉ done.map Prod.fst) :
    gathered (done ++ [(host,pid)]) host = HostNode.push pid ⟨host,[],done.length⟩ := by
  have none := filter_eq_nil_iff.mpr fun proc inside same => unknown (mem_map.mpr ⟨proc,inside,of_decide_eq_true same⟩)
  simp [gathered,HostNode.push,none,idxOf_append,unknown]

theorem hosts_append : hosts (done ++ [proc]) = hosts done ++ if proc.1 ∈ done.map Prod.fst then [] else [proc.1] := by
  rw [hosts,map_append]
  exact eraseDups_append

theorem mem_hosts : host ∈ hosts done ↔ host ∈ done.map Prod.fst := mem_eraseDups

theorem hosts_ordered : (hosts done).Pairwise fun one two => (done.map Prod.fst).idxOf one < (done.map Prod.fst).idxOf two :=
  eraseDups_ordered

theorem modify_last : (nodes ++ [node]).modify nodes.length f = nodes ++ [f node] := by
  induction nodes with
  | nil => rfl
  | cons head nodes ih => simpa using ih

theorem last_index (new : name ∉ names) : some names.length = some nid ↔ (names ++ [name])[nid]? = some name := by
  constructor
  · rintro ⟨⟩
    simp
  · intro there
    rw [getElem?_append] at there
    split at there
    · exact absurd (mem_of_getElem? there) new
    · have bound := (List.getElem?_eq_some_iff.mp there).1
      rw [List.length_singleton] at bound
      exact congrArg some (by omega)

theorem addProc_new (sighted : Sighted done layout) (missing : layout.hostNidMap.find (baseHostname proc.1) = none) :
    Sighted (done ++ [(baseHostname proc.1,proc.2)]) (addProc layout proc) := by
  have unknown : baseHostname proc.1 ∉ done.map Prod.fst := fun known => by
    obtain ⟨nid,there⟩ := mem_iff_getElem?.mp (mem_hosts.mpr known)
    cases missing.symm.trans ((sighted.nids _ nid).mpr there)
  have grown : hosts (done ++ [(baseHostname proc.1,proc.2)]) = hosts done ++ [baseHostname proc.1] := by rw [hosts_append,if_neg unknown]
  have kept : (hosts done).map (gathered (done ++ [(baseHostname proc.1,proc.2)])) = (hosts done).map (gathered done) :=
    map_congr_left fun host listed =>
      gathered_other (mem_hosts.mp listed) (by rintro rfl; exact unknown (mem_hosts.mp listed))
  have length : layout.nodes.length = (hosts done).length := by rw [sighted.nodes,length_map]
  simp only [addProc,missing]
  refine ⟨?_,fun host nid => ?_,?_⟩
  · rw [grown,map_append,kept,map_singleton,gathered_new unknown,← sighted.nodes,sighted.peCount]
    exact modify_last
  · rw [grown,OrderedMap.find_insert,length]
    by_cases own : host = baseHostname proc.1
    · rw [if_pos own,own]
      exact last_index (fun listed => unknown (mem_hosts.mp listed))
    · rw [if_neg own,sighted.nids,getElem?_append]
      split
      · exact .rfl
      · rename_i outside
        constructor
        · intro there
          exact absurd (List.getElem?_eq_some_iff.mp there).1 outside
        · intro there
          exact absurd (mem_singleton.mp (mem_of_getElem? there)) own
  · rw [sighted.peCount,length_append]
    rfl

theorem addProc_known (sighted : Sighted done layout) (found : layout.hostNidMap.find (baseHostname proc.1) = some nid) :
    Sighted (done ++ [(baseHostname proc.1,proc.2)]) (addProc layout proc) := by
  have there := (sighted.nids _ nid).mp found
  have known := mem_hosts.mp (mem_of_getElem? there)
  have same : hosts (done ++ [(baseHostname proc.1,proc.2)]) = hosts done := by rw [hosts_append,if_pos known,append_nil]
  simp only [addProc,found]
  refine ⟨ext_getElem? fun i => ?_,fun host nid => ?_,?_⟩
  · rw [same,sighted.nodes,getElem?_modify,getElem?_map,getElem?_map]
    cases listed : (hosts done)[i]? with
    | none => rfl
    | some host =>
      have member := mem_hosts.mp (mem_of_getElem? listed)
      by_cases own : nid = i
      · subst own
        rw [there] at listed
        cases listed
        simp [gathered,HostNode.push,idxOf_append_of_mem known]
      · have other : baseHostname proc.1 ≠ host := fun equal => by
          have second := (sighted.nids host i).mpr listed
          rw [← equal,found] at second
          exact own (Option.some.inj second)
        simp [own,gathered_other member other]
  · rw [same]
    exact sighted.nids host nid
  · rw [sighted.peCount,length_append]
    rfl

theorem addProc_sighted (sighted : Sighted done layout) (proc : CStr × Pid) :
    Sighted (done ++ [(baseHostname proc.1,proc.2)]) (addProc layout proc) := by
  cases found : layout.hostNidMap.find (baseHostname proc.1) with
  | none => exact addProc_new sighted found
  | some nid => exact addProc_known sighted found

theorem addProcs_sighted (sighted : Sighted done layout) : Sighted (done ++ based procTable) (procTable.foldl addProc layout) := by
  induction procTable generalizing done layout with
  | nil => rwa [based,map_nil,append_nil]
  | cons proc procTable ih =>
    have rest := ih (addProc_sighted sighted proc)
    rwa [append_assoc] at rest

theorem fetchStepLayout_nodes (procTable : Procs) :
    fetchStepLayout procTable = (hosts (based procTable)).map (gathered (based procTable)) := by
  have start : Sighted [] ⟨[],.empty,0⟩ := ⟨rfl,fun host nid => by simp [hosts],rfl⟩
  exact (addProcs_sighted start).nodes

end Layout

section Table
variable {procs : Procs} {nodes : List NodeLayout}

theorem gathered_count : (gathered procs host).pids.length = hostPEs procs host := by
  rw [gathered,length_map,hostPEs,List.count,countP_map,countP_eq_length_filter]
  exact congrArg List.length (filter_congr fun proc _ =>
    Bool.eq_iff_iff.mpr (decide_eq_true_iff.trans beq_iff_eq.symm))

theorem gathered_describes : Describes procs ((hosts procs).map fun host => (gathered procs host).node) where
  distinct := by
    rw [map_map]
    exact (map_id (hosts procs)).symm ▸ eraseDups_nodup
  hosts host := by
    rw [map_map,← mem_hosts]
    exact Iff.of_eq (congrArg (host ∈ ·) (map_id (hosts procs)))
  numPEs node listed := by
    obtain ⟨host,_,rfl⟩ := mem_map.mp listed
    exact gathered_count
  firstPE node listed := by
    obtain ⟨host,_,rfl⟩ := mem_map.mp listed
    rfl

structure InBlocks (procs : Procs) : Prop where
  count : procs.length < 2 ^ 31
  fit : ∀ host ∈ procs.map Prod.fst, host.1.length < hostNameMax
  together : Together (procs.map Prod.fst)
  apart : (procs.map Prod.fst).Pairwise fun earlier later => later.1 <+: earlier.1 → later = earlier

theorem inBlocks_of_blocked
    (blocked : Blocked prefixTest procs ((hosts procs).map fun host => (gathered procs host).node)) : InBlocks procs := by
  have entry : ∀ host ∈ procs.map Prod.fst,
      (gathered procs host).node ∈ (hosts procs).map fun host => (gathered procs host).node :=
    fun host known => mem_map.mpr ⟨host,mem_hosts.mpr known,rfl⟩
  have together : Together (procs.map Prod.fst) := block_together fun host known rank low high => by
    have there := blocked.block _ (entry host known) rank low (by rw [HostNode.node,gathered_count]; exact high)
    exact host_there.mpr there
  refine ⟨blocked.count,fun host known => blocked.fit _ (entry host known),together,?_⟩
  have apart := pairwise_map.mp blocked.apart
  rw [pairwise_iff_getElem]
  intro i j early late before starts
  by_contra other
  obtain ⟨a,inside,first⟩ := getElem_of_mem (mem_hosts.mpr (getElem_mem early))
  obtain ⟨b,inside',second⟩ := getElem_of_mem (mem_hosts.mpr (getElem_mem late))
  rcases Nat.lt_trichotomy a b with less | same | more
  · have unmatched := pairwise_iff_getElem.mp apart a b inside inside' less
    rw [first,second] at unmatched
    exact absurd (List.isPrefixOf_iff_prefix.mpr starts) (Bool.eq_false_iff.mp unmatched)
  · subst same
    exact other (second.symm.trans first)
  · -- The later name was seen before the earlier one, so it stands on both sides of it.
    have order := pairwise_iff_getElem.mp hosts_ordered b a inside' inside more
    rw [second,first] at order
    have sooner := idxOf_first (getElem?_eq_getElem early)
    have between := together _ i j _ (by omega) before (getElem_idxOf (getElem_mem late)) (getElem?_eq_getElem late)
    rw [getElem?_eq_getElem early] at between
    exact other (Option.some.inj between).symm

theorem blocked_of_inBlocks (inBlocks : InBlocks procs) :
    Blocked prefixTest procs ((hosts procs).map fun host => (gathered procs host).node) := by
  refine ⟨inBlocks.count,fun node listed => ?_,?_,fun node listed rank low high => ?_⟩
  · obtain ⟨host,known,rfl⟩ := mem_map.mp listed
    exact inBlocks.fit host (mem_hosts.mp known)
  · refine pairwise_map.mpr (hosts_ordered.imp_of_mem fun {earlier later} first second less => ?_)
    refine Bool.eq_false_iff.mpr fun starts => ?_
    obtain ⟨early,one⟩ := List.getElem?_eq_some_iff.mp (getElem_idxOf (mem_hosts.mp first))
    obtain ⟨late,two⟩ := List.getElem?_eq_some_iff.mp (getElem_idxOf (mem_hosts.mp second))
    have same := pairwise_iff_getElem.mp inBlocks.apart _ _ early late less
    rw [one,two] at same
    rw [same (List.isPrefixOf_iff_prefix.mp starts)] at less
    omega
  · obtain ⟨host,known,rfl⟩ := mem_map.mp listed
    rw [HostNode.node,gathered_count] at high
    exact host_there.mp (together_block inBlocks.together (mem_hosts.mp known) low high)

end Table

def nodeOne : CStr := ⟨ascii "node1",by decide⟩

def nodeTen : CStr := ⟨ascii "node10",by decide⟩

def prefixTable : Procs := [(nodeTen,300),(nodeOne,301)]

def scatteredTable : Procs := [(nodeOne,300),(nodeTen,301),(nodeOne,302)]

end CommonTools.Placement.GenericSsh
