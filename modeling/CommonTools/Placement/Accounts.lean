import Mathlib.Algebra.Order.BigOperators.Group.List
import Mathlib.Algebra.Order.Ring.Nat
import CommonTools.Library.Occurrences
import CommonTools.Placement.Files

namespace CommonTools.Placement
open Occurrences FeDaemon List NodeLayout

abbrev Procs := List (CStr × Pid)

def hostPEs (procs : Procs) (host : CStr) : Nat := (procs.map Prod.fst).count host

def listedPEs (nodes : List NodeLayout) (host : CStr) : Nat :=
  ((nodes.filter (fun node => decide (node.hostname = host))).map numPEs).sum

def NodeLayout.shift (offset : Nat) (node : NodeLayout) : NodeLayout := {node with firstPE := node.firstPE + offset}

-- A list of nodes for a job: every entry names a node that has its first rank and
-- counts ranks of that node, and all ranks of a node are counted.
structure Accounts (procs : Procs) (nodes : List NodeLayout) : Prop where
  few : nodes.length ≤ procs.length
  inside : ∀ node ∈ nodes, node.firstPE + node.numPEs ≤ procs.length
  counted : ∀ node ∈ nodes, 0 < node.numPEs
  first : ∀ node ∈ nodes, ∃ pid, procs[node.firstPE]? = some (node.hostname,pid)
  counts : ∀ host, hostPEs procs host = listedPEs nodes host

structure Describes (procs : Procs) (nodes : List NodeLayout) : Prop where
  distinct : (nodes.map hostname).Nodup
  hosts : ∀ host, host ∈ nodes.map hostname ↔ host ∈ procs.map Prod.fst
  numPEs : ∀ node ∈ nodes, node.numPEs = hostPEs procs node.hostname
  firstPE : ∀ node ∈ nodes, node.firstPE = (procs.map Prod.fst).idxOf node.hostname

section Counting
variable {procs procs' : Procs} {nodes nodes' : List NodeLayout}

theorem hostPEs_append : hostPEs (procs ++ procs') host = hostPEs procs host + hostPEs procs' host := by
  rw [hostPEs,map_append,count_append]
  rfl

theorem host_there {rank : Nat} {host : CStr} : (procs.map Prod.fst)[rank]? = some host ↔ ∃ pid, procs[rank]? = some (host,pid) := by
  rw [getElem?_map,Option.map_eq_some_iff]
  constructor
  · rintro ⟨proc,there,rfl⟩
    exact ⟨proc.2,there⟩
  · rintro ⟨pid,there⟩
    exact ⟨_,there,rfl⟩

theorem listedPEs_append : listedPEs (nodes ++ nodes') host = listedPEs nodes host + listedPEs nodes' host := by
  rw [listedPEs,filter_append,map_append,sum_append]
  rfl

theorem listedPEs_shift : listedPEs (nodes.map (NodeLayout.shift offset)) host = listedPEs nodes host := by
  rw [listedPEs,filter_map,map_map]
  rfl

theorem listedPEs_single (distinct : (nodes.map NodeLayout.hostname).Nodup)
    (listed : node ∈ nodes) (named : node.hostname = host) : listedPEs nodes host = node.numPEs := by
  induction nodes with
  | nil => cases listed
  | cons head rest ih =>
    obtain ⟨absent,distinct⟩ := nodup_cons.mp distinct
    rcases mem_cons.mp listed with rfl | later
    · have others : rest.filter (fun node => decide (node.hostname = host)) = [] :=
        filter_eq_nil_iff.mpr fun other inside same =>
          absent (mem_map.mpr ⟨other,inside,(of_decide_eq_true same).trans named.symm⟩)
      simp [listedPEs,others,named]
    · have other : head.hostname ≠ host := fun same => absent (mem_map.mpr ⟨node,later,named.trans same.symm⟩)
      rw [← ih distinct later]
      simp [listedPEs,other]

theorem listedPEs_zero (absent : host ∉ nodes.map NodeLayout.hostname) : listedPEs nodes host = 0 := by
  have none := filter_eq_nil_iff.mpr fun node listed same => absent (mem_map.mpr ⟨node,listed,of_decide_eq_true same⟩)
  rw [listedPEs,none]
  rfl

theorem two_counted (before : k < j) (late : j < nodes.length) (first : nodes[k].hostname = host)
    (second : nodes[j].hostname = host) : nodes[k].numPEs + nodes[j].numPEs ≤ listedPEs nodes host := by
  have split : nodes = nodes.take j ++ nodes[j] :: nodes.drop (j + 1) := by rw [← drop_eq_getElem_cons late,take_append_drop]
  have listed : nodes[k] ∈ nodes.take j := mem_take_iff_getElem.mpr ⟨k,by omega,rfl⟩
  have counted : nodes[k].numPEs ≤ listedPEs (nodes.take j) host :=
    le_sum_of_mem (mem_map_of_mem (mem_filter.mpr ⟨listed,decide_eq_true first⟩))
  have rest : listedPEs (nodes[j] :: nodes.drop (j + 1)) host = nodes[j].numPEs + listedPEs (nodes.drop (j + 1)) host := by
    rw [listedPEs,filter_cons,if_pos (decide_eq_true second),map_cons,sum_cons]
    rfl
  conv_rhs => rw [split,listedPEs_append,rest]
  omega

end Counting

section Accounting
variable {procs procs' : Procs} {nodes nodes' : List NodeLayout}

theorem Describes.accounts (describes : Describes procs nodes) : Accounts procs nodes where
  few := by
    have inside : nodes.map hostname ⊆ procs.map Prod.fst := fun host listed => (describes.hosts host).mp listed
    have fewer := (subperm_of_subset describes.distinct inside).length_le
    rwa [length_map,length_map] at fewer
  inside node listed := by
    rw [describes.numPEs node listed,describes.firstPE node listed]
    have room := first_room (procs.map Prod.fst) node.hostname
    rwa [length_map] at room
  counted node listed := by
    rw [describes.numPEs node listed]
    exact count_pos_iff.mpr ((describes.hosts _).mp (mem_map_of_mem listed))
  first node listed := by
    rw [describes.firstPE node listed]
    exact host_there.mp (getElem_idxOf ((describes.hosts _).mp (mem_map_of_mem listed)))
  counts host := by
    by_cases known : host ∈ nodes.map hostname
    · obtain ⟨node,listed,named⟩ := mem_map.mp known
      rw [listedPEs_single describes.distinct listed named,describes.numPEs node listed,named]
    · rw [listedPEs_zero known]
      exact count_eq_zero.mpr fun listed => known ((describes.hosts host).mpr listed)

theorem Accounts.nil : Accounts [] [] := ⟨Nat.le_refl _,by simp,by simp,by simp,fun _ => rfl⟩

theorem Accounts.append (left : Accounts procs nodes) (right : Accounts procs' nodes') :
    Accounts (procs ++ procs') (nodes ++ nodes'.map (shift procs.length)) := by
  have cases : ∀ {P : NodeLayout → Prop}, (∀ node ∈ nodes, P node) → (∀ node ∈ nodes', P (node.shift procs.length)) →
      ∀ node ∈ nodes ++ nodes'.map (shift procs.length), P node := by
    intro P first second node listed
    rcases mem_append.mp listed with early | late
    · exact first node early
    · obtain ⟨node,inside,rfl⟩ := mem_map.mp late
      exact second node inside
  refine ⟨?_,cases (fun node listed => ?_) (fun node listed => ?_),cases left.counted right.counted,
    cases (fun node listed => ?_) (fun node listed => ?_),fun host => ?_⟩
  · have := left.few
    have := right.few
    simp only [length_append,length_map]
    omega
  · have := left.inside node listed
    rw [length_append]
    omega
  · have := right.inside node listed
    simp only [shift,length_append]
    omega
  · obtain ⟨pid,there⟩ := left.first node listed
    have bound := (List.getElem?_eq_some_iff.mp there).1
    exact ⟨pid,by rw [List.getElem?_append_left bound]; exact there⟩
  · obtain ⟨pid,there⟩ := right.first node listed
    refine ⟨pid,?_⟩
    dsimp only [shift]
    rw [getElem?_append_right (by omega),Nat.add_sub_cancel]
    exact there
  · rw [hostPEs_append,listedPEs_append,listedPEs_shift,left.counts,right.counts]

theorem Accounts.perm (accounts : Accounts procs nodes) (perm : nodes'.Perm nodes) : Accounts procs nodes' where
  few := perm.length_eq ▸ accounts.few
  inside node listed := accounts.inside node (perm.mem_iff.mp listed)
  counted node listed := accounts.counted node (perm.mem_iff.mp listed)
  first node listed := accounts.first node (perm.mem_iff.mp listed)
  counts host := (accounts.counts host).trans ((perm.symm.filter _).map _).sum_eq

end Accounting

end CommonTools.Placement
