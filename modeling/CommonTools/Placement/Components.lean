import CommonTools.Library.Environments
import CommonTools.FeDaemon.Ranks

namespace CommonTools.Placement.Slurm
open OrderedMaps OrderedMap FeDaemon List

structure Attached where
  mpirId : Id
  launcherPid : Pid
  proctable : List ElemRead
  binaryRankMap : BinaryRankMap

-- The response of one sattach, with the map that its reader has made of the proctable.
def attached (read : MPIRRead) : Attached :=
  ⟨read.mpirId,read.launcherPid,read.proctable,generateBinaryRankMap read.proctable⟩

def mergeRow (ranks : BinaryRankMap) (row : Bytes × List Nat) : BinaryRankMap :=
  ranks.insert row.1 ((ranks.find row.1).getD [] ++ row.2)

def mergeRanks (ranks source : BinaryRankMap) : BinaryRankMap := source.entries.foldl mergeRow ranks

def Attached.add (result mpirResult : Attached) : Attached :=
  ⟨if result.mpirId.toInt < 0 then mpirResult.mpirId else result.mpirId,
    if result.launcherPid.toInt < 0 then mpirResult.launcherPid else result.launcherPid,
    result.proctable ++ mpirResult.proctable,mergeRanks result.binaryRankMap mpirResult.binaryRankMap⟩

def sattachFailure (jobId stepId : Nat) (what : Bytes) : Bytes :=
  ascii "Failed to attach to job using SATTACH (" ++ what ++ ascii "). Try running \x60sattach -Q " ++
    Numerals.decimal jobId ++ ascii "." ++ Numerals.decimal stepId ++ ascii "\x60"

-- One launch for each component. The session of the first one is kept and the others
-- are released.
def sattachMPIR (jobId stepId : Nat) (releaseFunc : Id → Except Bytes Unit) (result : Attached) :
    List (Except Bytes Attached) → Except Bytes Attached
  | [] => .ok result
  | .error what :: _ => .error (sattachFailure jobId stepId what)
  | .ok mpirResult :: rest =>
    match if result.mpirId.toInt < 0 then .ok () else releaseFunc mpirResult.mpirId with
    | .error what => .error (sattachFailure jobId stepId what)
    | .ok () => sattachMPIR jobId stepId releaseFunc (result.add mpirResult) rest

def unattached : Attached := ⟨-1,-1,[],.empty⟩

structure BinaryList where
  binaries : List Bytes
  rankMap : List (Option Int)
  deriving DecidableEq

def writeRank (rankMap : List (Option Int)) (row : Nat × Nat) : List (Option Int) := rankMap.set row.1 (some row.2)

def rankRows (ranks : BinaryRankMap) : List (Nat × Nat) :=
  ranks.entries.zipIdx.flatMap fun (row,i) => row.2.map fun rank => (rank,i)

-- The memory comes from malloc, so a rank that is not in the map has no value.
def getAppBinaryList (ranks : BinaryRankMap) (numPEs : Nat) : BinaryList :=
  ⟨ranks.entries.map Prod.fst,(rankRows ranks).foldl writeRank (List.replicate numPEs none ++ [some (-1)])⟩

def BinaryList.binary (list : BinaryList) (rank : Nat) : Option Bytes := do
  let cell ← list.rankMap[rank]?
  let i ← cell
  if i < 0 then none else list.binaries[i.toNat]?

def allProcesses (reads : List MPIRRead) : List ElemRead := reads.flatMap MPIRRead.proctable

structure NumbersGlobally (reads : List MPIRRead) (result : Attached) : Prop where
  proctable : result.proctable = allProcesses reads
  ranks : result.binaryRankMap = generateBinaryRankMap (allProcesses reads)
  single : PartitionsRanks (allProcesses reads) result.binaryRankMap
  listed : ∀ (rank : Nat) elem, (allProcesses reads)[rank]? = some elem →
    (getAppBinaryList result.binaryRankMap (allProcesses reads).length).binary rank = some elem.executable

theorem merged_absent {rows : List (Bytes × List Nat)} (absent : binary ∉ rows.map Prod.fst)
    {ranks : BinaryRankMap} : (rows.foldl mergeRow ranks).find binary = ranks.find binary := by
  induction rows generalizing ranks with
  | nil => rfl
  | cons row rows ih =>
    simp only [map_cons,mem_cons,not_or] at absent
    simp [foldl_cons,ih absent.2,mergeRow,absent.1]

theorem merged_present {rows : List (Bytes × List Nat)} (single : (rows.map Prod.fst).Nodup) (inside : row ∈ rows) {ranks : BinaryRankMap} :
    (rows.foldl mergeRow ranks).find row.1 = some ((ranks.find row.1).getD [] ++ row.2) := by
  induction rows generalizing ranks with
  | nil => cases inside
  | cons first rows ih =>
    simp only [map_cons,nodup_cons] at single
    cases inside with
    | head => simp [merged_absent single.1,mergeRow]
    | tail _ later =>
      have other : row.1 ≠ first.1 := fun same => single.1 (same ▸ mem_map_of_mem later)
      simp [ih single.2 later,mergeRow,other]

theorem mergeRanks_empty {source : BinaryRankMap} : mergeRanks .empty source = source := by
  apply ext_find
  intro binary
  cases found : source.find binary with
  | none =>
    refine merged_absent (fun inside => ?_)
    rw [OrderedMap.mem_keys,found] at inside
    cases inside
  | some filed => exact merged_present source.keys_nodup ((find_mem (binary,filed) source).mp found)

theorem merged_filed {P : Nat → Prop} {rows : List (Bytes × List Nat)} (added : ∀ row ∈ rows, ∀ rank ∈ row.2, P rank)
    {ranks : BinaryRankMap} (before : ∀ binary filed, ranks.find binary = some filed → ∀ rank ∈ filed, P rank) :
    ∀ binary filed, (rows.foldl mergeRow ranks).find binary = some filed → ∀ rank ∈ filed, P rank := by
  induction rows generalizing ranks with
  | nil => exact before
  | cons row rows ih =>
    apply ih fun other inside => added other (mem_cons_of_mem _ inside)
    intro binary filed found rank inside
    rw [mergeRow,find_insert] at found
    split at found
    · cases found
      rcases mem_append.mp inside with earlier | new
      · cases known : ranks.find row.1 with
        | none => simp [known] at earlier
        | some old => exact before row.1 old known rank (by simpa [known] using earlier)
      · exact added row mem_cons_self rank new
    · exact before binary filed found rank inside

section Components
variable {reads : List MPIRRead}

def addAll (result : Attached) (reads : List MPIRRead) : Attached := (reads.map attached).foldl Attached.add result

theorem sattach_all (jobId stepId : Nat) (result : Attached) (reads : List MPIRRead) :
    sattachMPIR jobId stepId (fun _ => .ok ()) result (reads.map fun read => .ok (attached read)) = .ok (addAll result reads) := by
  induction reads generalizing result with
  | nil => rfl
  | cons read reads ih =>
    rw [map_cons,sattachMPIR,ite_self]
    exact ih _

theorem addAll_proctable (result : Attached) (reads : List MPIRRead) :
    (addAll result reads).proctable = result.proctable ++ allProcesses reads := by
  induction reads generalizing result with
  | nil => simp [addAll,allProcesses]
  | cons read reads ih =>
    have step : addAll result (read :: reads) = addAll (result.add (attached read)) reads := rfl
    simp [step,ih,Attached.add,attached,allProcesses]

def mergeAll (ranks : BinaryRankMap) (reads : List MPIRRead) : BinaryRankMap :=
  reads.foldl (fun ranks read => mergeRanks ranks (generateBinaryRankMap read.proctable)) ranks

theorem addAll_ranks (result : Attached) (reads : List MPIRRead) :
    (addAll result reads).binaryRankMap = mergeAll result.binaryRankMap reads := by
  induction reads generalizing result with
  | nil => rfl
  | cons read reads ih => exact ih _

def Busy (read : MPIRRead) : Bool := decide (read.proctable ≠ [])

theorem mergeAll_busy : mergeAll ranks reads = mergeAll ranks (reads.filter Busy) := by
  induction reads generalizing ranks with
  | nil => rfl
  | cons read reads ih =>
    by_cases empty : read.proctable = []
    · have nothing : mergeAll ranks (read :: reads) = mergeAll ranks reads := by
        rw [mergeAll,foldl_cons,empty]
        rfl
      simp [nothing,ih,Busy,empty]
    · have next : ∀ rest, mergeAll ranks (read :: rest) = mergeAll (mergeRanks ranks (generateBinaryRankMap read.proctable)) rest :=
        fun _ => rfl
      simp [next,ih,Busy,empty]

theorem allProcesses_busy : allProcesses reads = allProcesses (reads.filter Busy) := by
  induction reads with
  | nil => rfl
  | cons read reads ih =>
    unfold allProcesses at ih ⊢
    by_cases empty : read.proctable = [] <;> simp [ih,Busy,empty]

theorem mergeAll_filed (reads : List MPIRRead) : ∀ binary filed, (mergeAll .empty reads).find binary = some filed →
    ∀ rank ∈ filed, ∃ read ∈ reads, rank < read.proctable.length := by
  induction reads using reverseRecOn with
  | nil =>
    intro binary filed found
    cases found
  | append_singleton reads last ih =>
    have step : mergeAll .empty (reads ++ [last]) = mergeRanks (mergeAll .empty reads) (generateBinaryRankMap last.proctable) := by
      simp [mergeAll]
    rw [step]
    apply merged_filed
    · intro row inside rank filed
      have found := (find_mem row _).mpr inside
      obtain ⟨elem,known,_⟩ := (generateBinaryRankMap_partitions last.proctable).bounded _ _ found rank filed
      exact ⟨last,by simp,(List.getElem?_eq_some_iff.mp known).1⟩
    · intro binary filed found rank inside
      obtain ⟨read,listed,small⟩ := ih binary filed found rank inside
      exact ⟨read,by simp [listed],small⟩

theorem busy_of_total (total : ∀ (rank : Nat) elem, (allProcesses reads)[rank]? = some elem →
    ∃ filed, (mergeAll .empty reads).find elem.executable = some filed ∧ rank ∈ filed) : (reads.filter Busy).length ≤ 1 := by
  have idle : ∀ others : List MPIRRead, (others.flatMap MPIRRead.proctable).length = 0 → others.filter Busy = [] := by
    intro others none
    rw [filter_eq_nil_iff]
    intro other member
    have empty := flatMap_eq_nil_iff.mp (length_eq_zero_iff.mp none) other member
    simp [Busy,empty]
  rcases eq_nil_or_concat' (allProcesses reads) with none | ⟨front,last,parts⟩
  · simp [idle reads (length_eq_zero_iff.mpr none)]
  · obtain ⟨filed,found,inside⟩ := total front.length last (by simp [parts])
    obtain ⟨read,listed,large⟩ := mergeAll_filed reads _ _ found _ inside
    obtain ⟨before,after,rfl⟩ := append_of_mem listed
    have lengths := congrArg List.length parts
    simp only [allProcesses,flatMap_append,flatMap_cons,length_append,length_singleton] at lengths
    rw [filter_append,idle before (by omega),filter_cons,idle after (by omega)]
    split <;> simp

theorem mergeAll_single (few : (reads.filter Busy).length ≤ 1) : mergeAll .empty reads = generateBinaryRankMap (allProcesses reads) := by
  rw [mergeAll_busy,allProcesses_busy]
  match reads.filter Busy,few with
  | [],_ => rfl
  | [read],_ =>
    have one : mergeAll .empty [read] = mergeRanks .empty (generateBinaryRankMap read.proctable) := rfl
    simp [one,mergeRanks_empty,allProcesses]

end Components

section Reporting
variable {procTable : List ElemRead} {ranks : BinaryRankMap}

theorem written_length {rows : List (Nat × Nat)} {rankMap : List (Option Int)} :
    (rows.foldl writeRank rankMap).length = rankMap.length := by
  induction rows generalizing rankMap with
  | nil => rfl
  | cons row rows ih => simp [ih,writeRank]

theorem written_agreed {rows : List (Nat × Nat)} {rank i : Nat} (listed : (rank,i) ∈ rows)
    (agreed : ∀ row ∈ rows, row.1 = rank → row.2 = i) {rankMap : List (Option Int)} (inside : rank < rankMap.length) :
    (rows.foldl writeRank rankMap)[rank]? = some (some (i : Int)) := by
  induction rows using reverseRecOn with
  | nil => cases listed
  | append_singleton rows row ih =>
    rw [foldl_append,foldl_cons,foldl_nil,writeRank]
    by_cases same : row.1 = rank
    · have value := agreed row (by simp) same
      simp [same,value,written_length,inside]
    · have earlier : (rank,i) ∈ rows := by
        rcases mem_append.mp listed with earlier | last
        · exact earlier
        · exact absurd (congrArg Prod.fst (mem_singleton.mp last)).symm same
      rw [getElem?_set_ne same]
      exact ih earlier fun other member => agreed other (mem_append_left _ member)

theorem rankRows_mem : (rank,i) ∈ rankRows ranks ↔ ∃ row, ranks.entries[i]? = some row ∧ rank ∈ row.2 := by
  simp only [rankRows,mem_flatMap,mem_map,Prod.mk.injEq]
  constructor
  · rintro ⟨⟨row,k⟩,member,other,filed,rfl,rfl⟩
    exact ⟨row,mem_zipIdx_iff_getElem?.mp member,filed⟩
  · intro ⟨row,known,filed⟩
    exact ⟨(row,i),mem_zipIdx_iff_getElem?.mpr known,rank,filed,rfl,rfl⟩

theorem listed_of_partition (valid : PartitionsRanks procTable ranks) {elem : ElemRead}
    (known : procTable[rank]? = some elem) : (getAppBinaryList ranks procTable.length).binary rank = some elem.executable := by
  obtain ⟨filed,found,inside⟩ := valid.total rank elem known
  obtain ⟨i,small,here⟩ := getElem_of_mem ((find_mem (elem.executable,filed) ranks).mp found)
  have place : ranks.entries[i]? = some (elem.executable,filed) := List.getElem?_eq_some_iff.mpr ⟨small,here⟩
  have agreed : ∀ row ∈ rankRows ranks, row.1 = rank → row.2 = i := by
    intro row member same
    obtain ⟨other,elsewhere,filedThere⟩ := rankRows_mem.mp member
    have otherFound := (find_mem other ranks).mpr (mem_of_getElem? elsewhere)
    obtain ⟨elem',known',named⟩ := valid.bounded _ _ otherFound row.1 filedThere
    rw [same,known] at known'
    cases known'
    have keys : (ranks.entries.map Prod.fst)[row.2]? = (ranks.entries.map Prod.fst)[i]? := by simp [elsewhere,place,named]
    have bound : row.2 < (ranks.entries.map Prod.fst).length := by
      rw [length_map]
      exact (List.getElem?_eq_some_iff.mp elsewhere).1
    exact (List.getElem?_inj bound ranks.keys_nodup).mp keys
  have bound := (List.getElem?_eq_some_iff.mp known).1
  have room : rank < (List.replicate procTable.length none ++ [some (-1)] : List (Option Int)).length := by
    simp
    omega
  have cell := written_agreed (rankRows_mem.mpr ⟨_,place,inside⟩) agreed room
  simp [BinaryList.binary,getAppBinaryList,cell,place]

end Reporting

-- The maps of the components are joined without moving their ranks.
theorem attach_numbers_globally (jobId stepId : Nat) (reads : List MPIRRead) :
    (∃ result, sattachMPIR jobId stepId (fun _ => .ok ()) unattached (reads.map fun read => .ok (attached read)) = .ok result ∧
      NumbersGlobally reads result) ↔ (reads.filter Busy).length ≤ 1 := by
  have proctable := addAll_proctable unattached reads
  have ranks := addAll_ranks unattached reads
  rw [sattach_all]
  constructor
  · rintro ⟨_,⟨⟩,global⟩
    have total := global.single.total
    rw [ranks] at total
    exact busy_of_total total
  · intro few
    have joined : (addAll unattached reads).binaryRankMap = generateBinaryRankMap (allProcesses reads) := ranks.trans (mergeAll_single few)
    have valid := generateBinaryRankMap_partitions (allProcesses reads)
    rw [← joined] at valid
    exact ⟨_,rfl,proctable,joined,valid,fun rank elem known => listed_of_partition valid known⟩

def component (binary : Bytes) : MPIRRead := ⟨1,7,5,0,[⟨70,ascii "n0",binary⟩]⟩

theorem second_component_lost : ¬ (∃ result, sattachMPIR 5 0 (fun _ => .ok ()) unattached
      ([component (ascii "a"),component (ascii "b")].map fun read => .ok (attached read)) = .ok result ∧
        NumbersGlobally [component (ascii "a"),component (ascii "b")] result) ∧
    getAppBinaryList (addAll unattached [component (ascii "a"),component (ascii "b")]).binaryRankMap 2 =
      ⟨[ascii "a",ascii "b"],[some 1,none,some (-1)]⟩ := by
  refine ⟨?_,by decide⟩
  rintro ⟨result,attaches,global⟩
  rw [sattach_all] at attaches
  cases attaches
  have second := global.listed 1 ⟨70,ascii "n0",ascii "b"⟩ rfl
  revert second
  decide

end CommonTools.Placement.Slurm
