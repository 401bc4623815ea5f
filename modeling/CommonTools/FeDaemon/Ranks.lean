import Mathlib.Data.List.Lex
import Mathlib.Order.Lex
import CommonTools.Library.OrderedMaps
import CommonTools.FeDaemon.Conversation

namespace CommonTools.FeDaemon
open OrderedMaps Programs Streams
open List hiding count elem

-- The characters of a std::string are compared as unsigned ones.
instance byteOrder : LinearOrder UInt8 := LinearOrder.lift' UInt8.toNat fun _ _ same => UInt8.toNat_inj.mp same

abbrev BinaryRankMap := OrderedMap Bytes (List Nat)

def pushRank (result : BinaryRankMap × Nat) (elem : ElemRead) : BinaryRankMap × Nat :=
  (result.1.insert elem.executable ((result.1.find elem.executable).getD [] ++ [result.2]),result.2 + 1)

def generateBinaryRankMap (procTable : List ElemRead) : BinaryRankMap := (procTable.foldl pushRank (.empty,0)).1

def readMPIRResult : Read (MPIRRead × BinaryRankMap) := do
  let result ← readMPIRResp
  return (result,generateBinaryRankMap result.proctable)

structure PartitionsRanks (procTable : List ElemRead) (ranks : BinaryRankMap) : Prop where
  total : ∀ (rank : Nat) elem, procTable[rank]? = some elem → ∃ filed, ranks.find elem.executable = some filed ∧ rank ∈ filed
  bounded : ∀ executable filed, ranks.find executable = some filed → ∀ rank ∈ filed,
    ∃ elem, procTable[rank]? = some elem ∧ elem.executable = executable
  ascending : ∀ executable filed, ranks.find executable = some filed → filed.Pairwise (· < ·)
  inhabited : ∀ executable filed, ranks.find executable = some filed → filed ≠ []

theorem pushed_rank (procTable : List ElemRead) (result : BinaryRankMap × Nat) :
    (procTable.foldl pushRank result).2 = result.2 + procTable.length := by
  induction procTable generalizing result with
  | nil => rfl
  | cons elem procTable ih => simp [ih,pushRank,Nat.add_assoc,Nat.add_comm 1]

theorem pushed_filed (procTable : List ElemRead) (ranks : BinaryRankMap) (elem : ElemRead)
    (valid : PartitionsRanks procTable ranks) : ∀ rank ∈ (ranks.find elem.executable).getD [], rank < procTable.length ∧
      ∃ earlier, (procTable ++ [elem])[rank]? = some earlier ∧ earlier.executable = elem.executable := by
  intro rank inside
  cases found : ranks.find elem.executable with
  | none => simp [found] at inside
  | some filed =>
    simp only [found,Option.getD_some] at inside
    obtain ⟨earlier,known,same⟩ := valid.bounded _ _ found rank inside
    obtain ⟨small,_⟩ := List.getElem?_eq_some_iff.mp known
    exact ⟨small,earlier,by simpa [List.getElem?_append_left small] using known,same⟩

theorem pushRank_found (found : (pushRank (ranks,rank) elem).1.find executable = some filed) :
    executable = elem.executable ∧ filed = (ranks.find elem.executable).getD [] ++ [rank] ∨ ranks.find executable = some filed := by
  simp only [pushRank,OrderedMap.find_insert] at found
  split at found
  · rename_i same
    cases found
    exact .inl ⟨same,rfl⟩
  · exact .inr found

theorem old_or_last (known : (procTable ++ [elem])[rank]? = some other) :
    procTable[rank]? = some other ∨ rank = procTable.length ∧ other = elem := by
  have bound := (List.getElem?_eq_some_iff.mp known).1
  simp only [List.length_append,List.length_singleton] at bound
  by_cases old : rank < procTable.length
  · exact .inl (by simpa [getElem?_append_left old] using known)
  · have last : rank = procTable.length := by omega
    subst last
    simp only [getElem?_concat_length,Option.some.injEq] at known
    exact .inr ⟨rfl,known.symm⟩

theorem pushRank_partitions (procTable : List ElemRead) (elem : ElemRead) (valid : PartitionsRanks procTable ranks) :
    PartitionsRanks (procTable ++ [elem]) (pushRank (ranks,procTable.length) elem).1 := by
  have before := pushed_filed procTable ranks elem valid
  refine ⟨?_,?_,?_,?_⟩
  · intro rank other known
    rcases old_or_last known with old | ⟨rfl,rfl⟩
    · obtain ⟨filed,found,inside⟩ := valid.total rank other old
      by_cases same : other.executable = elem.executable
      · rw [same] at found
        exact ⟨filed ++ [procTable.length],by simp [pushRank,same,found],by simp [inside]⟩
      · exact ⟨filed,by simp [pushRank,same,found],inside⟩
    · exact ⟨(ranks.find other.executable).getD [] ++ [procTable.length],by simp [pushRank],by simp⟩
  · intro executable filed found rank inside
    rcases pushRank_found found with ⟨rfl,rfl⟩ | old
    · rcases mem_append.mp inside with earlier | last
      · exact (before rank earlier).2
      · exact ⟨elem,by simp [mem_singleton.mp last],rfl⟩
    · obtain ⟨earlier,known,named⟩ := valid.bounded _ _ old rank inside
      obtain ⟨small,_⟩ := List.getElem?_eq_some_iff.mp known
      exact ⟨earlier,by simpa [List.getElem?_append_left small] using known,named⟩
  · intro executable filed found
    rcases pushRank_found found with ⟨rfl,rfl⟩ | old
    · refine pairwise_append.mpr ⟨?_,pairwise_singleton _ _,?_⟩
      · cases known : ranks.find elem.executable with
        | none => exact .nil
        | some filed => exact valid.ascending _ _ known
      · intro rank earlier last new
        exact mem_singleton.mp new ▸ (before rank earlier).1
    · exact valid.ascending _ _ old
  · intro executable filed found
    rcases pushRank_found found with ⟨rfl,rfl⟩ | old
    · simp
    · exact valid.inhabited _ _ old

theorem generateBinaryRankMap_partitions (procTable : List ElemRead) : PartitionsRanks procTable (generateBinaryRankMap procTable) := by
  induction procTable using reverseRecOn with
  | nil => constructor <;> simp [generateBinaryRankMap]
  | append_singleton procTable elem ih =>
    have step := pushRank_partitions procTable elem ih
    have count := pushed_rank procTable (.empty,0)
    simp only [Nat.zero_add] at count
    simpa [generateBinaryRankMap,foldl_append,← count] using step

theorem readElems_length (done : readElems count s = .ok elems s') : elems.length = count := by
  induction count generalizing s elems s' with
  | zero => cases done; rfl
  | succ count ih =>
    obtain ⟨pid,_,_,named⟩ := bind_ok.mp done
    obtain ⟨hostname,_,_,run⟩ := bind_ok.mp named
    obtain ⟨executable,_,_,others⟩ := bind_ok.mp run
    obtain ⟨rest,_,read,last⟩ := bind_ok.mp others
    cases last
    simp [ih read]

theorem readMPIRResp_length (done : readMPIRResp s = .ok result s') : result.proctable.length < 2 ^ 31 := by
  obtain ⟨raw,_,_,decoded⟩ := bind_ok.mp done
  split at decoded
  · cases decoded
  · split at decoded
    · split at decoded
      · obtain ⟨message,_,_,thrown⟩ := bind_ok.mp decoded
        cases message <;> cases thrown
      · cases decoded
    · obtain ⟨proctable,_,read,last⟩ := bind_ok.mp decoded
      cases last
      have count := readElems_length read
      have small := BitVec.toInt_lt (x := BitVec.ofNat 32 (field raw 24 4))
      simp only [count]
      omega

section RoundTrip
variable (pad : Padding)

def MPIRResult.seen (result : MPIRResult) : MPIRRead :=
  ⟨result.mpirId,result.launcherPid,result.jobId,result.stepId,result.proctable.map ProctableElem.seen⟩

def RoundTrips (result : MPIRResult) : Prop :=
  ∃ ranks, Consumes readMPIRResult (tryWriteMPIRResp pad (.ok result)) (.ok (result.seen,ranks)) ∧
    PartitionsRanks result.seen.proctable ranks

def CarriesMessage (message : CStr) : Prop :=
  Consumes readMPIRResult (tryWriteMPIRResp pad (.error message)) (.error (.received message.1))

theorem roundTrips_counted (named : result.mpirId ≠ 0) (counted : result.proctable.length < 2 ^ 31) : RoundTrips pad result :=
  ⟨generateBinaryRankMap result.seen.proctable,
    consumes_map (consumes_readMPIRResp pad named counted) fun read => (read,generateBinaryRankMap read.proctable),
    generateBinaryRankMap_partitions _⟩

theorem counted_roundTrips (back : RoundTrips pad result) : result.proctable.length < 2 ^ 31 := by
  obtain ⟨ranks,read,_⟩ := back
  obtain ⟨s',ran,_⟩ := read [tryWriteMPIRResp pad (.ok result)] [] (by simp)
  obtain ⟨mpir,_,responded,last⟩ := bind_ok.mp (outcome_ok ran)
  have small := readMPIRResp_length responded
  cases last
  simpa [MPIRResult.seen] using small

theorem ended_text {bytes : Bytes} (text : CStr) (taken : text.1 <+: bytes.set last 0) : text.1.length ≤ last := by
  by_contra longer
  have small : last < text.1.length := by omega
  have zero : text.1[last] = 0 := by simp [taken.getElem small]
  have member := getElem_mem small
  rw [zero] at member
  exact text.2 member

theorem carries_fitting (fits : message.1.length + 1 < 2 ^ 64) : CarriesMessage pad message := by
  have length : (BitVec.ofNat 64 (message.1.length + 1)).toNat = message.1.length + 1 := by rw [BitVec.toNat_ofNat,Nat.mod_eq_of_lt fits]
  have read := consumes_readMPIRError pad (message.1 ++ [0]) (BitVec.ofNat 64 (message.1.length + 1)) (by omega)
    (by simp [length])
  rw [length,cstr_ended] at read
  exact consumes_stop read

theorem fitting_carries (carried : CarriesMessage pad message) : message.1.length + 1 < 2 ^ 64 := by
  by_contra long
  let length := BitVec.ofNat 64 (message.1.length + 1)
  obtain ⟨_,ran,_⟩ := carried [tryWriteMPIRResp pad (.error message)] [] (by simp)
  by_cases positive : 0 < length.toNat
  · let front := (message.1 ++ [0]).take length.toNat
    have size : front.length = length.toNat := by
      simp only [front,length_take,length_append,length_singleton]
      omega
    have read : Consumes readMPIRResult _ _ := consumes_stop (consumes_readMPIRError pad front length positive size)
    obtain ⟨_,ran',_⟩ := read [tryWriteMPIRResp pad (.error message)] (plain ((message.1 ++ [0]).drop length.toNat)) (by
      simp [tryWriteMPIRResp,writeString,front,plain,length])
    have same : message.1 = (cstr (front.set (length.toNat - 1) 0)).1 := by
      have equal := (congrArg Prod.fst ran).symm.trans (congrArg Prod.fst ran')
      simpa using equal
    have cut := ended_text (cstr (front.set (length.toNat - 1) 0)) (List.takeWhile_prefix _)
    rw [← same] at cut
    omega
  · obtain ⟨raw,header,type,mpirId,-,-,-,-,counted⟩ := consumes_header pad 0 0 0 0 0 length
    have read : Consumes readMPIRResult (writeMPIRResp pad 0 0 0 0 0 length)
        (.error (.text "failed to perform MPIR launch")) := by
      refine consumes_stop (consumes_last header ?_)
      simp only [type,mpirId,counted,if_neg positive]
      exact consumes_throw
    obtain ⟨_,ran',_⟩ := read [tryWriteMPIRResp pad (.error message)] (writeString message) (by simp [tryWriteMPIRResp,length])
    have equal := (congrArg Prod.fst ran).symm.trans (congrArg Prod.fst ran')
    cases equal

end RoundTrip

def crowd (count : Nat) : MPIRResult := ⟨1,7,0,0,List.replicate count ⟨7,⟨[110],by decide⟩,⟨[97],by decide⟩⟩⟩

theorem crowd_length : (crowd count).proctable.length = count := length_replicate

end CommonTools.FeDaemon
