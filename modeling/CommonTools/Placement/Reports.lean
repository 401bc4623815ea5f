import CommonTools.Placement.Slices
import CommonTools.Placement.Accounts

namespace CommonTools.Placement
open Records Occurrences FeDaemon
open List hiding count

def ranked (chosen : (CStr × Pid) × Nat → Bool) (procs : Procs) : List RankPid :=
  (procs.zipIdx.filter chosen).map fun proc => ((proc.2 : Int),proc.1.2)

def onHost (procs : Procs) (host : CStr) : List RankPid := ranked (fun proc => decide (proc.1.1 = host)) procs

def inRange (first count : Nat) (procs : Procs) : List RankPid :=
  ranked (fun proc => decide (first ≤ proc.2 ∧ proc.2 < first + count)) procs

theorem rankPids_small {node : NodeLayout} {pids : List Pid} (few : node.firstPE + pids.length < 2 ^ 31) :
    rankPids node.layout pids = (pids.zipIdx node.firstPE).map fun pid => ((pid.2 : Int),pid.1) := by
  rw [rankPids,zipIdx_eq_map_add (i := node.firstPE),map_map]
  refine map_congr_left fun pid numbered => ?_
  have range := mem_zipIdx (show (pid.1,pid.2) ∈ pids.zipIdx from numbered)
  have value : (BitVec.ofNat 32 pid.2 + node.layout.firstPE).toInt = (node.firstPE + pid.2 : Nat) := by
    rw [Nat.add_comm,← word_int (x := pid.2 + node.firstPE) (by omega),BitVec.ofNat_add]
    rfl
  exact Prod.ext value rfl

section Ranked
variable {procs : Procs}

theorem mem_ranked {chosen : (CStr × Pid) × Nat → Bool} {rank : Nat} {host : CStr} {pid : Pid}
    (there : procs[rank]? = some (host,pid)) : ((rank : Int),pid) ∈ ranked chosen procs ↔ chosen ((host,pid),rank) = true := by
  constructor
  · intro listed
    obtain ⟨⟨proc,i⟩,inside,same⟩ := mem_map.mp listed
    obtain ⟨numbered,picked⟩ := mem_filter.mp inside
    have index : i = rank := Int.ofNat.inj (congrArg Prod.fst same)
    subst index
    have found := mk_mem_zipIdx_iff_getElem?.mp numbered
    rw [there] at found
    cases found
    exact picked
  · intro picked
    exact mem_map.mpr ⟨_,mem_filter.mpr ⟨mk_mem_zipIdx_iff_getElem?.mpr there,picked⟩,rfl⟩

theorem ranked_perm {one two : (CStr × Pid) × Nat → Bool} : (ranked one procs).Perm (ranked two procs) ↔
    ∀ rank host pid, procs[rank]? = some (host,pid) → (one ((host,pid),rank) = true ↔ two ((host,pid),rank) = true) := by
  constructor
  · intro same rank host pid there
    rw [← mem_ranked there,← mem_ranked there,same.mem_iff]
  · intro agree
    have equal : procs.zipIdx.filter one = procs.zipIdx.filter two := filter_congr fun proc numbered => by
      have there := mk_mem_zipIdx_iff_getElem?.mp (show (proc.1,proc.2) ∈ procs.zipIdx from numbered)
      exact Bool.eq_iff_iff.mpr (agree proc.2 proc.1.1 proc.1.2 there)
    rw [ranked,ranked,equal]

theorem inRange_slice (inside : first + count ≤ procs.length) :
    inRange first count procs = (((procs.drop first).take count).zipIdx first).map fun proc => ((proc.2 : Int),proc.1.2) := by
  have split : procs = procs.take first ++ ((procs.drop first).take count ++ (procs.drop first).drop count) := by
    rw [take_append_drop,take_append_drop]
  have front : (procs.take first).length = first := by rw [length_take]; omega
  have middle : ((procs.drop first).take count).length = count := by rw [length_take,length_drop]; omega
  unfold inRange ranked
  congr 1
  conv_lhs => rw [split]
  rw [zipIdx_append,zipIdx_append,front,middle,Nat.zero_add,filter_append,filter_append]
  have early : ((procs.take first).zipIdx).filter (fun proc => decide (first ≤ proc.2 ∧ proc.2 < first + count)) = [] :=
    filter_eq_nil_iff.mpr fun proc numbered chosen => by
      have range := mem_zipIdx (show (proc.1,proc.2) ∈ (procs.take first).zipIdx from numbered)
      have := of_decide_eq_true chosen
      omega
  have here : (((procs.drop first).take count).zipIdx first).filter
      (fun proc => decide (first ≤ proc.2 ∧ proc.2 < first + count)) = ((procs.drop first).take count).zipIdx first :=
    filter_eq_self.mpr fun proc numbered => by
      have range := mem_zipIdx (show (proc.1,proc.2) ∈ ((procs.drop first).take count).zipIdx first from numbered)
      exact decide_eq_true ⟨by omega,by omega⟩
  have late : (((procs.drop first).drop count).zipIdx (first + count)).filter
      (fun proc => decide (first ≤ proc.2 ∧ proc.2 < first + count)) = [] :=
    filter_eq_nil_iff.mpr fun proc numbered chosen => by
      have range := mem_zipIdx
        (show (proc.1,proc.2) ∈ ((procs.drop first).drop count).zipIdx (first + count) from numbered)
      have := of_decide_eq_true chosen
      omega
  rw [early,here,late,append_nil,nil_append]

theorem inRange_length (inside : first + count ≤ procs.length) : (inRange first count procs).length = count := by
  rw [inRange_slice inside,length_map,length_zipIdx,length_take,length_drop]
  omega

theorem onHost_length : (onHost procs host).length = hostPEs procs host := by
  have numbered : procs.map Prod.fst = procs.zipIdx.map fun proc => proc.1.1 := by
    conv_lhs => rw [← zipIdx_map_fst 0 procs,map_map]
    rfl
  rw [hostPEs,numbered,List.count,countP_map,onHost,ranked,length_map,countP_eq_length_filter]
  exact congrArg List.length (filter_congr fun proc _ =>
    Bool.eq_iff_iff.mpr (decide_eq_true_iff.trans beq_iff_eq.symm))

theorem rankPids_slice {node : NodeLayout} (few : procs.length < 2 ^ 31) (inside : node.firstPE + node.numPEs ≤ procs.length) :
    rankPids node.layout (((procs.map Prod.snd).drop node.firstPE).take node.numPEs) = inRange node.firstPE node.numPEs procs := by
  have bound : node.firstPE + ((procs.drop node.firstPE).take node.numPEs).length < 2 ^ 31 := by
    rw [length_take]
    omega
  rw [inRange_slice inside,← map_drop,← map_take,rankPids_small (by rwa [length_map]),zipIdx_map,
    map_map]
  rfl

end Ranked

section Reporting
variable (isHere : HostTest) (procs : Procs) (nodes : List NodeLayout)

def Reported (findAppPids : CStr → Bytes → Bytes → Option (List RankPid)) : Prop :=
  ∃ layoutFile, createNodeLayoutFile nodes = .ok layoutFile ∧ ∀ host ∈ procs.map Prod.fst,
    ∃ pairs, findAppPids host layoutFile (createPIDListFile (procs.map Prod.snd)) = some pairs ∧
      pairs.Perm (onHost procs host)

-- No entry is taken for that of a node listed later, and the ranks an entry counts
-- follow each other on its node.
structure Blocked : Prop where
  count : procs.length < 2 ^ 31
  fit : ∀ node ∈ nodes, node.hostname.1.length < hostNameMax
  apart : nodes.Pairwise fun earlier later => earlier.isFor isHere later.hostname = false
  block : ∀ node ∈ nodes, ∀ rank, node.firstPE ≤ rank → rank < node.firstPE + node.numPEs →
    ∃ pid, procs[rank]? = some (node.hostname,pid)

variable {isHere procs nodes} {layoutFile : Bytes}

theorem findAppPids_found (made : createNodeLayoutFile nodes = .ok layoutFile)
    (count : procs.length < 2 ^ 31) (accounts : Accounts procs nodes) (found : nodes.find? (·.isFor isHere host) = some node) :
    findAppPids isHere host layoutFile (createPIDListFile (procs.map Prod.snd)) = some (inRange node.firstPE node.numPEs procs) := by
  have inside := accounts.inside node (mem_of_find?_eq_some found)
  have few := accounts.few
  have bound : (procs.map Prod.snd).length < 2 ^ 31 := by rw [length_map]; exact count
  unfold findAppPids
  rw [getLayout_few made (by omega),found]
  dsimp only [Option.map_some,Option.bind_eq_bind,Option.bind_some]
  rw [getPids_small bound (by rw [length_map]; exact inside)]
  exact congrArg some (rankPids_slice count inside)

theorem apart_unique (apart : nodes.Pairwise fun earlier later => earlier.isFor isHere later.hostname = false)
    (listed : node ∈ nodes) (named : node.hostname = host) :
    nodes.find? (·.isFor isHere host) = some node ∧ nodes.filter (fun node => decide (node.hostname = host)) = [node] := by
  obtain ⟨before,after,rfl⟩ := append_of_mem listed
  obtain ⟨_,later,earlier⟩ := pairwise_append.mp apart
  have own : ∀ other : NodeLayout, other.hostname = host → other.isFor isHere host = true := by
    rintro other rfl
    exact isHere.own other.hostname
  have unmatched : ∀ other ∈ before, other.isFor isHere host = false := fun other inside =>
    named ▸ earlier other inside node mem_cons_self
  have left : before.filter (fun node => decide (node.hostname = host)) = [] :=
    filter_eq_nil_iff.mpr fun other inside same => by
      have wrong := own other (of_decide_eq_true same)
      rw [unmatched other inside] at wrong
      cases wrong
  have right : after.filter (fun node => decide (node.hostname = host)) = [] :=
    filter_eq_nil_iff.mpr fun other inside same => by
      have wrong := (pairwise_cons.mp later).1 other inside
      rw [of_decide_eq_true same,own node named] at wrong
      cases wrong
  have first : before.find? (·.isFor isHere host) = none := List.find?_eq_none.mpr fun other inside same => by
    rw [unmatched other inside] at same
    cases same
  constructor
  · simp [List.find?_append,first,own node named]
  · simp [filter_append,left,right,named]

section
variable (accounts : Accounts procs nodes)
include accounts

theorem reported_of_blocked (blocked : Blocked isHere procs nodes) : Reported procs nodes (findAppPids isHere) := by
  refine ⟨_,createNodeLayoutFile_fit blocked.fit,fun host known => ?_⟩
  obtain ⟨proc,listed,rfl⟩ := mem_map.mp known
  -- The processes of the host are counted by an entry, and by no other.
  have counts := accounts.counts proc.1
  have present : 0 < hostPEs procs proc.1 := count_pos_iff.mpr known
  obtain ⟨node,inside,named⟩ : ∃ node ∈ nodes, node.hostname = proc.1 := by
    by_contra missing
    have empty := filter_eq_nil_iff.mpr fun node inside same => missing ⟨node,inside,of_decide_eq_true same⟩
    rw [counts,listedPEs,empty] at present
    exact absurd present (by simp)
  obtain ⟨found,only⟩ := apart_unique blocked.apart inside named
  rw [listedPEs,only] at counts
  have block := blocked.block node inside
  refine ⟨_,findAppPids_found (createNodeLayoutFile_fit blocked.fit) blocked.count accounts found,ranked_perm.mpr ?_⟩
  intro rank host pid there
  simp only [decide_eq_true_eq]
  constructor
  · rintro ⟨low,high⟩
    obtain ⟨pid',there'⟩ := block rank low high
    rw [there] at there'
    cases there'
    exact named
  · intro same
    have here := host_there.mpr ⟨pid,there⟩
    refine only_inside counts (fun rank low high => ?_) here (beq_iff_eq.mpr same)
    exact ⟨_,host_there.mpr (block rank low high),beq_iff_eq.mpr named⟩

theorem reported_count (reported : Reported procs nodes (findAppPids isHere)) : procs.length < 2 ^ 31 := by
  obtain ⟨layoutFile,made,reports⟩ := reported
  by_contra many
  obtain ⟨rank,bound,missed⟩ := large_missed (procs.map Prod.snd) (by rw [length_map]; omega)
  rw [length_map] at bound missed
  have there := getElem?_eq_getElem bound
  obtain ⟨pairs,read,same⟩ := reports procs[rank].1 (mem_map_of_mem (getElem_mem bound))
  have expected := same.mem_iff.mpr ((mem_ranked there).mpr (decide_eq_true rfl))
  obtain ⟨layout,layoutRead,rest⟩ := Option.bind_eq_some_iff.mp read
  obtain ⟨pids,pidsRead,given⟩ := Option.bind_eq_some_iff.mp rest
  cases given
  obtain ⟨node,inside,rfl⟩ := getLayout_node made layoutRead
  exact missed node (accounts.inside node inside) pids pidsRead _ expected rfl

theorem reported_found (reported : Reported procs nodes (findAppPids isHere))
    (known : host ∈ procs.map Prod.fst) : ∃ node, nodes.find? (·.isFor isHere host) = some node ∧ hostPEs procs host = node.numPEs ∧
      ∀ rank host' pid, procs[rank]? = some (host',pid) → (node.firstPE ≤ rank ∧ rank < node.firstPE + node.numPEs ↔ host' = host) := by
  have count := reported_count accounts reported
  have few := accounts.few
  obtain ⟨layoutFile,made,reports⟩ := reported
  obtain ⟨pairs,read,same⟩ := reports host known
  cases found : nodes.find? (·.isFor isHere host) with
  | none =>
    rw [findAppPids,getLayout_few made (by omega),found] at read
    cases read
  | some node =>
    rw [findAppPids_found made count accounts found] at read
    cases read
    have length := same.length_eq
    rw [inRange_length (accounts.inside node (mem_of_find?_eq_some found)),onHost_length] at length
    refine ⟨node,rfl,length.symm,fun rank host' pid there => ?_⟩
    have agree := ranked_perm.mp same rank host' pid there
    simpa only [decide_eq_true_eq] using agree

theorem blocked_of_reported (reported : Reported procs nodes (findAppPids isHere)) : Blocked isHere procs nodes := by
  have own : ∀ host ∈ procs.map Prod.fst, ∃ node, nodes.find? (·.isFor isHere host) = some node ∧ node.hostname = host ∧
      hostPEs procs host = node.numPEs ∧ ∀ rank host' pid,
        procs[rank]? = some (host',pid) → (node.firstPE ≤ rank ∧ rank < node.firstPE + node.numPEs ↔ host' = host) := by
    intro host known
    obtain ⟨node,found,total,agree⟩ := reported_found accounts reported known
    have inside := mem_of_find?_eq_some found
    obtain ⟨pid,there⟩ := accounts.first node inside
    have positive := accounts.counted node inside
    exact ⟨node,found,(agree node.firstPE _ pid there).mp ⟨by omega,by omega⟩,total,agree⟩
  have known : ∀ node ∈ nodes, node.hostname ∈ procs.map Prod.fst := fun node inside => by
    obtain ⟨pid,there⟩ := accounts.first node inside
    exact mem_map.mpr ⟨_,mem_of_getElem? there,rfl⟩
  have apart : nodes.Pairwise fun earlier later => earlier.isFor isHere later.hostname = false := by
    rw [pairwise_iff_getElem]
    intro i j early late before
    by_contra matched
    obtain ⟨node,found,named,total,_⟩ := own nodes[j].hostname (known _ (getElem_mem late))
    -- The entry found stands before the later one, so both are counted for the host.
    obtain ⟨_,k,bound,rfl,first⟩ := List.find?_eq_some_iff_getElem.mp found
    have sooner : k ≤ i := by
      by_contra after
      have unmatched := first i (by omega)
      rw [Bool.not_eq_true_eq_eq_false] at unmatched
      exact matched unmatched
    have both := two_counted (show k < j by omega) late named rfl
    have counts := accounts.counts nodes[j].hostname
    have positive := accounts.counted nodes[j] (getElem_mem late)
    omega
  refine ⟨reported_count accounts reported,?_,apart,?_⟩
  · obtain ⟨layoutFile,made,_⟩ := reported
    exact createNodeLayoutFile_ok made
  · intro node inside rank low high
    obtain ⟨node',found',_,_,agree⟩ := own node.hostname (known node inside)
    obtain ⟨found,_⟩ := apart_unique apart inside rfl
    rw [found] at found'
    cases found'
    have bound : rank < procs.length := by
      have := accounts.inside node inside
      omega
    have there : procs[rank]? = some (procs[rank].1,procs[rank].2) := getElem?_eq_getElem bound
    rw [(agree rank _ _ there).mp ⟨low,high⟩] at there
    exact ⟨_,there⟩

theorem reported_iff : Reported procs nodes (findAppPids isHere) ↔ Blocked isHere procs nodes :=
  ⟨blocked_of_reported accounts,reported_of_blocked accounts⟩

end

end Reporting

end CommonTools.Placement
