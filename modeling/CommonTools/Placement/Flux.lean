import Mathlib.Data.Int.Interval
import CommonTools.Placement.Reports

namespace CommonTools.Placement.Flux
open Records FeDaemon List

structure HostPlacement where
  hostname : CStr
  numPEs : Nat
  rankPidPairs : List RankPid
  deriving DecidableEq

def numbered (first_pe : Nat) : List HostPlacement → List (HostPlacement × Nat)
  | [] => []
  | placement :: rest => (placement,first_pe) :: numbered (first_pe + placement.numPEs) rest

def node (row : HostPlacement × Nat) : NodeLayout := ⟨row.1.hostname,row.1.numPEs,row.2⟩

def createNodeLayoutFile (hostsPlacement : List HostPlacement) : Except String Bytes :=
  Placement.createNodeLayoutFile ((numbered 0 hostsPlacement).map node)

def allPids (hostsPlacement : List HostPlacement) : List Pid :=
  hostsPlacement.flatMap fun placement => placement.rankPidPairs.map Prod.snd

def createPIDListFile (hostsPlacement : List HostPlacement) : Bytes := Placement.createPIDListFile (allPids hostsPlacement)

def findAppPids (hostname : CStr) (layoutFile pidFile : Bytes) : Option (List RankPid) :=
  Placement.findAppPids domainTest hostname layoutFile pidFile

def Reported (hostsPlacement : List HostPlacement) : Prop :=
  ∃ layoutFile, createNodeLayoutFile hostsPlacement = .ok layoutFile ∧ ∀ placement ∈ hostsPlacement,
    ∃ pairs, findAppPids placement.hostname layoutFile (createPIDListFile hostsPlacement) = some pairs ∧
      pairs.Perm placement.rankPidPairs

def Counted (hostsPlacement : List HostPlacement) : Prop :=
  ∀ placement ∈ hostsPlacement, placement.numPEs = placement.rankPidPairs.length

def accepted (hostname : CStr) (placement : HostPlacement) : Bool := domainTest.test hostname.1 placement.hostname.1

def counted (row : HostPlacement × Nat) : List RankPid :=
  ((row.1.rankPidPairs.map Prod.snd).zipIdx row.2).map fun pid => ((pid.2 : Int),pid.1)

section Rows
variable {hostsPlacement : List HostPlacement}

theorem numbered_fst (first_pe : Nat) (hostsPlacement : List HostPlacement) :
    (numbered first_pe hostsPlacement).map Prod.fst = hostsPlacement := by
  induction hostsPlacement generalizing first_pe with
  | nil => rfl
  | cons placement rest ih => simp [numbered,ih]

theorem numbered_slice (sound : Counted hostsPlacement) (listed : row ∈ numbered first_pe hostsPlacement) : first_pe ≤ row.2 ∧
      row.2 + row.1.numPEs ≤ first_pe + (allPids hostsPlacement).length ∧
      ((allPids hostsPlacement).drop (row.2 - first_pe)).take row.1.numPEs = row.1.rankPidPairs.map Prod.snd := by
  induction hostsPlacement generalizing first_pe with
  | nil => cases listed
  | cons placement rest ih =>
    have own := sound placement mem_cons_self
    have pids : allPids (placement :: rest) = placement.rankPidPairs.map Prod.snd ++ allPids rest := rfl
    have length : (allPids (placement :: rest)).length = placement.numPEs + (allPids rest).length := by simp [pids,own]
    rcases mem_cons.mp listed with rfl | later
    · refine ⟨Nat.le_refl _,by simp only [length]; omega,?_⟩
      simp [pids,own]
    · obtain ⟨low,high,slice⟩ := ih (fun placement inside => sound placement (mem_cons_of_mem _ inside)) later
      refine ⟨by omega,by omega,?_⟩
      have skipped : row.2 - first_pe = (placement.rankPidPairs.map Prod.snd).length + (row.2 - (first_pe + placement.numPEs)) := by
        rw [length_map]
        omega
      rw [pids,skipped,drop_length_add_append,slice]

theorem numbered_length (first_pe : Nat) (hostsPlacement : List HostPlacement) :
    (numbered first_pe hostsPlacement).length = hostsPlacement.length := by
  conv_rhs => rw [← numbered_fst first_pe hostsPlacement,length_map]

theorem mem_numbered (listed : placement ∈ hostsPlacement) : ∃ row ∈ numbered first_pe hostsPlacement, row.1 = placement := by
  rw [← numbered_fst first_pe hostsPlacement] at listed
  exact mem_map.mp listed

theorem numbered_mem (listed : row ∈ numbered first_pe hostsPlacement) : row.1 ∈ hostsPlacement := by
  conv => rw [← numbered_fst first_pe hostsPlacement]
  exact mem_map_of_mem listed

theorem accepted_own : accepted placement.hostname placement = true := domainTest.own _

end Rows

section Files
variable {hostsPlacement : List HostPlacement} {layoutFile : Bytes}

def firstAccepted (hostsPlacement : List HostPlacement) (hostname : CStr) : Option (HostPlacement × Nat) :=
  (numbered 0 hostsPlacement).find? fun row => accepted hostname row.1

theorem firstAccepted_some (listed : placement ∈ hostsPlacement) : ∃ row, firstAccepted hostsPlacement placement.hostname = some row := by
  obtain ⟨row,inside,rfl⟩ := mem_numbered listed
  exact Option.isSome_iff_exists.mp (List.find?_isSome.mpr ⟨row,inside,accepted_own⟩)

theorem createNodeLayoutFile_iff : (∃ layoutFile, createNodeLayoutFile hostsPlacement = .ok layoutFile) ↔
    ∀ placement ∈ hostsPlacement, placement.hostname.1.length < hostNameMax := by
  constructor
  · rintro ⟨layoutFile,made⟩ placement listed
    obtain ⟨row,inside,rfl⟩ := mem_numbered listed
    exact createNodeLayoutFile_ok made (node row) (mem_map_of_mem inside)
  · intro fit
    refine ⟨_,createNodeLayoutFile_fit fun entry inside => ?_⟩
    obtain ⟨row,listed,rfl⟩ := mem_map.mp inside
    exact fit row.1 (numbered_mem listed)

theorem findAppPids_first (made : createNodeLayoutFile hostsPlacement = .ok layoutFile) (sound : Counted hostsPlacement)
    (few : hostsPlacement.length < 2 ^ 31) (fewer : (allPids hostsPlacement).length < 2 ^ 31)
    (found : firstAccepted hostsPlacement hostname = some row) :
    findAppPids hostname layoutFile (createPIDListFile hostsPlacement) = some (counted row) := by
  have listed := mem_of_find?_eq_some found
  obtain ⟨_,high,slice⟩ := numbered_slice sound listed
  have short : ((numbered 0 hostsPlacement).map node).length < 2 ^ 31 := by
    rw [length_map,numbered_length]
    exact few
  have entry : ((numbered 0 hostsPlacement).map node).find? (·.isFor domainTest hostname) = some (node row) := by
    rw [List.find?_map]
    exact congrArg (Option.map node) found
  have size : row.2 + (row.1.rankPidPairs.map Prod.snd).length < 2 ^ 31 := by
    rw [length_map,← sound row.1 (numbered_mem listed)]
    omega
  have inside : (node row).firstPE + (node row).numPEs ≤ (allPids hostsPlacement).length := by
    dsimp only [node]
    omega
  have pids : getPids (node row).layout (Placement.createPIDListFile (allPids hostsPlacement)) =
      some (row.1.rankPidPairs.map Prod.snd) := (getPids_small fewer inside).trans (congrArg some slice)
  unfold findAppPids Placement.findAppPids createPIDListFile
  rw [getLayout_few made short,entry]
  dsimp only [Option.map_some,Option.bind_eq_bind,Option.bind_some]
  rw [pids]
  exact congrArg some (rankPids_small size)

end Files

section Conditions
variable (hostsPlacement : List HostPlacement)

structure Served : Prop where
  fit : ∀ placement ∈ hostsPlacement, placement.hostname.1.length < hostNameMax
  taken : ∀ placement ∈ hostsPlacement, ∀ row, firstAccepted hostsPlacement placement.hostname = some row →
    (counted row).Perm placement.rankPidPairs

structure Proper : Prop where
  ranks : ((hostsPlacement.flatMap HostPlacement.rankPidPairs).map Prod.fst).Nodup
  occupied : ∀ placement ∈ hostsPlacement, placement.rankPidPairs ≠ []

structure Orderly : Prop where
  count : (allPids hostsPlacement).length < 2 ^ 31
  fit : ∀ placement ∈ hostsPlacement, placement.hostname.1.length < hostNameMax
  apart : hostsPlacement.Pairwise fun earlier later => accepted later.hostname earlier = false
  places : ∀ row ∈ numbered 0 hostsPlacement, (counted row).Perm row.1.rankPidPairs

end Conditions

section Agreement
variable {hostsPlacement : List HostPlacement}

theorem reported_iff_served (sound : Counted hostsPlacement) (few : hostsPlacement.length < 2 ^ 31)
    (fewer : (allPids hostsPlacement).length < 2 ^ 31) : Reported hostsPlacement ↔ Served hostsPlacement := by
  constructor
  · rintro ⟨layoutFile,made,reports⟩
    refine ⟨createNodeLayoutFile_iff.mp ⟨_,made⟩,fun placement listed row found => ?_⟩
    obtain ⟨pairs,read,same⟩ := reports placement listed
    rw [findAppPids_first made sound few fewer found] at read
    cases read
    exact same
  · intro served
    obtain ⟨layoutFile,made⟩ := createNodeLayoutFile_iff.mpr served.fit
    refine ⟨layoutFile,made,fun placement listed => ?_⟩
    obtain ⟨row,found⟩ := firstAccepted_some listed
    exact ⟨_,findAppPids_first made sound few fewer found,served.taken placement listed row found⟩

theorem allPids_length : (allPids hostsPlacement).length = ((hostsPlacement.flatMap HostPlacement.rankPidPairs).map Prod.fst).length := by
  simp [allPids,length_flatMap]

theorem rankPids_range {pair : RankPid} (listed : pair ∈ rankPids layout pids) : - 2 ^ 31 ≤ pair.1 ∧ pair.1 < 2 ^ 31 := by
  obtain ⟨pid,_,rfl⟩ := mem_map.mp listed
  have low := BitVec.le_toInt (BitVec.ofNat 32 pid.2 + layout.firstPE)
  have high := BitVec.toInt_lt (x := BitVec.ofNat 32 pid.2 + layout.firstPE)
  constructor <;> simp only at * <;> omega

theorem reported_parts (read : findAppPids hostname layoutFile pidFile = some pairs) : ∃ layout pids,
      getLayout domainTest hostname layoutFile = some layout ∧ getPids layout pidFile = some pids ∧ pairs = rankPids layout pids := by
  obtain ⟨layout,layoutRead,rest⟩ := Option.bind_eq_some_iff.mp read
  obtain ⟨pids,pidsRead,given⟩ := Option.bind_eq_some_iff.mp rest
  exact ⟨layout,pids,layoutRead,pidsRead,(Option.some.inj given).symm⟩

theorem reported_ranks (proper : Proper hostsPlacement) (reported : Reported hostsPlacement) :
    (allPids hostsPlacement).length ≤ 2 ^ 32 := by
  obtain ⟨layoutFile,_,reports⟩ := reported
  have range : ∀ rank ∈ (hostsPlacement.flatMap HostPlacement.rankPidPairs).map Prod.fst,
      rank ∈ Finset.Ico (- 2 ^ 31 : Int) (2 ^ 31) := by
    intro rank given
    obtain ⟨pair,inside,rfl⟩ := mem_map.mp given
    obtain ⟨placement,listed,own⟩ := mem_flatMap.mp inside
    obtain ⟨pairs,read,same⟩ := reports placement listed
    obtain ⟨layout,pids,_,_,rfl⟩ := reported_parts read
    exact Finset.mem_Ico.mpr (rankPids_range (same.mem_iff.mpr own))
  have most := Finset.card_le_card fun rank inside => range rank (mem_toFinset.mp inside)
  rw [toFinset_card_of_nodup proper.ranks,Int.card_Ico] at most
  rw [allPids_length]
  exact most

theorem reported_first (proper : Proper (placement :: rest)) (reported : Reported (placement :: rest)) :
    0 < (BitVec.ofNat 32 (allPids (placement :: rest)).length).toInt := by
  obtain ⟨layoutFile,made,reports⟩ := reported
  obtain ⟨pairs,read,same⟩ := reports placement mem_cons_self
  obtain ⟨layout,pids,layoutRead,pidsRead,rfl⟩ := reported_parts read
  have own : layout = (node (placement,0)).layout := by
    rw [getLayout_written domainTest placement.hostname made] at layoutRead
    split at layoutRead
    · cases layoutRead
    · cases count : ((numbered 0 (placement :: rest)).map node).length % 2 ^ 32 with
      | zero =>
        rw [count] at layoutRead
        cases layoutRead
      | succ n =>
        have first : NodeLayout.isFor domainTest placement.hostname (node (placement,0)) = true := accepted_own
        rw [count,numbered,map_cons,take_succ_cons,List.find?_cons_of_pos first] at layoutRead
        exact (Option.some.inj layoutRead).symm
  subst own
  obtain ⟨bound,positive,length⟩ := getPids_checks pidsRead
  have total := same.length_eq
  have some := length_pos_of_ne_nil (proper.occupied placement mem_cons_self)
  have zero : (node (placement,0)).layout.firstPE = 0#32 := rfl
  rw [zero,BitVec.zero_add] at bound
  rw [rankPids,length_map,length_zipIdx] at total
  have value : (node (placement,0)).layout.PEsHere.toInt = (node (placement,0)).layout.PEsHere.toNat := by
    rw [BitVec.toInt_eq_toNat_cond] at positive ⊢
    split at positive
    · rename_i small
      rw [if_pos small]
    · omega
  omega

theorem reported_total (proper : Proper hostsPlacement) (reported : Reported hostsPlacement) :
    (allPids hostsPlacement).length < 2 ^ 31 := by
  cases hostsPlacement with
  | nil => exact Nat.two_pow_pos 31
  | cons placement rest =>
    have most := reported_ranks proper reported
    have header := reported_first proper reported
    rw [BitVec.toInt_eq_toNat_cond,BitVec.toNat_ofNat] at header
    split at header
    · omega
    · omega

theorem proper_disjoint (proper : Proper hostsPlacement) (early : i < hostsPlacement.length)
    (late : j < hostsPlacement.length) (before : i < j) : ¬ hostsPlacement[i].rankPidPairs.Perm hostsPlacement[j].rankPidPairs := by
  intro same
  have ranks := proper.ranks
  rw [map_flatMap,nodup_flatMap] at ranks
  obtain ⟨pair,inside⟩ := exists_mem_of_ne_nil _ (proper.occupied _ (getElem_mem early))
  exact pairwise_iff_getElem.mp ranks.2 i j early late before (mem_map_of_mem inside)
    (mem_map_of_mem (same.mem_iff.mp inside))

theorem numbered_get (inside : i < (numbered 0 hostsPlacement).length)
    (listed : i < hostsPlacement.length) : (numbered 0 hostsPlacement)[i].1 = hostsPlacement[i] := by
  have same := congrArg (·[i]?) (numbered_fst 0 hostsPlacement)
  simp only [getElem?_map,getElem?_eq_getElem inside,getElem?_eq_getElem listed,Option.map_some] at same
  exact Option.some.inj same

-- By induction on the place in the list: an entry taken instead of a host's own
-- would be one that serves its own host, and the two would share their ranks.
theorem served_own (proper : Proper hostsPlacement) (served : Served hostsPlacement) (inside : i < (numbered 0 hostsPlacement).length) :
    firstAccepted hostsPlacement (numbered 0 hostsPlacement)[i].1.hostname = some (numbered 0 hostsPlacement)[i] ∧
      ∀ k, (before : k < i) → accepted (numbered 0 hostsPlacement)[i].1.hostname (numbered 0 hostsPlacement)[k].1 = false := by
  induction i using Nat.strongRecOn with
  | ind i ih =>
    have length := numbered_length 0 hostsPlacement
    have listed := numbered_mem (getElem_mem inside)
    obtain ⟨row,found⟩ := firstAccepted_some listed
    obtain ⟨_,j,bound,rfl,earlier⟩ := List.find?_eq_some_iff_getElem.mp found
    rcases Nat.lt_trichotomy j i with less | same | more
    · have first := served.taken _ (numbered_mem (getElem_mem bound)) _ (ih j less bound).1
      have second := served.taken _ listed _ found
      have shared := first.symm.trans second
      rw [numbered_get bound (by omega),numbered_get inside (by omega)] at shared
      exact absurd shared (proper_disjoint proper (by omega) (by omega) less)
    · subst same
      exact ⟨found,fun k before => by simpa using earlier k before⟩
    · have refused := earlier i more
      rw [accepted_own] at refused
      cases refused

theorem orderly_of_served (proper : Proper hostsPlacement) (count : (allPids hostsPlacement).length < 2 ^ 31)
    (served : Served hostsPlacement) : Orderly hostsPlacement := by
  have length := numbered_length 0 hostsPlacement
  refine ⟨count,served.fit,?_,fun row listed => ?_⟩
  · rw [pairwise_iff_getElem]
    intro i j early late before
    have refused := (served_own proper served (by omega)).2 i before
    rwa [numbered_get (by omega) late,numbered_get (by omega) early] at refused
  · obtain ⟨i,bound,rfl⟩ := getElem_of_mem listed
    exact served.taken _ (numbered_mem listed) _ (served_own proper served bound).1

theorem served_of_orderly (orderly : Orderly hostsPlacement) : Served hostsPlacement := by
  have length := numbered_length 0 hostsPlacement
  refine ⟨orderly.fit,fun placement listed row found => ?_⟩
  obtain ⟨taken,j,bound,rfl,earlier⟩ := List.find?_eq_some_iff_getElem.mp found
  obtain ⟨i,late,rfl⟩ := getElem_of_mem listed
  rw [numbered_get bound (by omega)] at taken
  have own : j = i := by
    rcases Nat.lt_trichotomy j i with less | same | more
    · have refused := pairwise_iff_getElem.mp orderly.apart j i (by omega) late less
      rw [taken] at refused
      cases refused
    · exact same
    · have refused := earlier i more
      rw [numbered_get (by omega) late,accepted_own] at refused
      cases refused
  subst own
  have places := orderly.places _ (getElem_mem bound)
  rwa [numbered_get bound late] at places

theorem few_placements (occupied : ∀ placement ∈ hostsPlacement, placement.rankPidPairs ≠ []) :
    hostsPlacement.length ≤ (allPids hostsPlacement).length := by
  induction hostsPlacement with
  | nil => exact Nat.le_refl _
  | cons placement rest ih =>
    have here := length_pos_of_ne_nil (occupied placement mem_cons_self)
    have later := ih fun placement listed => occupied placement (mem_cons_of_mem _ listed)
    have pids : allPids (placement :: rest) = placement.rankPidPairs.map Prod.snd ++ allPids rest := rfl
    rw [pids,length_append,length_map,length_cons]
    omega

end Agreement

-- Below the limit of the int fields, for every list; and for lists that are those of
-- a job, at any size.
theorem flux_files_agree (hostsPlacement : List HostPlacement) (sound : Counted hostsPlacement) :
    (hostsPlacement.length < 2 ^ 31 → (allPids hostsPlacement).length < 2 ^ 31 → (Reported hostsPlacement ↔ Served hostsPlacement)) ∧
    (Proper hostsPlacement → (Reported hostsPlacement ↔ Orderly hostsPlacement)) := by
  refine ⟨reported_iff_served sound,fun proper => ⟨fun reported => ?_,fun orderly => ?_⟩⟩
  · have count := reported_total proper reported
    have few := few_placements proper.occupied
    exact orderly_of_served proper count ((reported_iff_served sound (by omega) count).mp reported)
  · have few := few_placements proper.occupied
    have count := orderly.count
    exact (reported_iff_served sound (by omega) count).mpr (served_of_orderly orderly)

def tiogaOne : CStr := ⟨ascii "tioga1",by decide⟩

def tiogaTwo : CStr := ⟨ascii "tioga2",by decide⟩

def blockPlacement : List HostPlacement := [⟨tiogaOne,2,[(0,70),(1,71)]⟩,⟨tiogaTwo,1,[(2,80)]⟩]

def cyclicPlacement : List HostPlacement := [⟨tiogaOne,2,[(0,70),(2,71)]⟩,⟨tiogaTwo,1,[(1,80)]⟩]

def dashedPlacement : List HostPlacement := [⟨⟨ascii "tioga1-a",by decide⟩,1,[(0,70)]⟩,⟨tiogaOne,1,[(1,80)]⟩]

theorem flux_files_agree_block : Proper blockPlacement ∧ Reported blockPlacement := by
  have proper : Proper blockPlacement := ⟨by decide,by decide⟩
  have orderly : Orderly blockPlacement := ⟨by decide,by decide,by decide,by decide⟩
  exact ⟨proper,((flux_files_agree blockPlacement (by unfold Counted; decide)).2 proper).mpr orderly⟩

theorem not_reported (placement : HostPlacement)
    (pairs : List RankPid) (made : createNodeLayoutFile hostsPlacement = .ok layoutFile) (listed : placement ∈ hostsPlacement)
    (read : findAppPids placement.hostname layoutFile (createPIDListFile hostsPlacement) = some pairs)
    (other : ¬ pairs.Perm placement.rankPidPairs) : ¬ Reported hostsPlacement := by
  rintro ⟨file,made',reports⟩
  cases made.symm.trans made'
  obtain ⟨pairs',read',same⟩ := reports placement listed
  cases read.symm.trans read'
  exact other same

-- Ranks dealt out in turn are renumbered, and a host takes the entry of one whose
-- name goes on from its own with a dash.
theorem cyclic_dashed_misreported : ¬ Reported cyclicPlacement ∧ ¬ Reported dashedPlacement := by
  constructor
  · exact not_reported ⟨tiogaOne,2,[(0,70),(2,71)]⟩ [(0,70),(1,71)] rfl (by decide) (by decide +kernel)
      (by decide)
  · exact not_reported ⟨tiogaOne,1,[(1,80)]⟩ [(0,70)] rfl (by decide) (by decide +kernel) (by decide)

end CommonTools.Placement.Flux
