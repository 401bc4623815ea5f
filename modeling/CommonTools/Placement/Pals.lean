import CommonTools.FeDaemon.Ranks
import CommonTools.Placement.Reports

namespace CommonTools.Placement.Pals
open OrderedMaps Records FeDaemon OrderedMap
open List hiding after count lookup

structure RankPidPair where
  pid : Pid
  rank : BitVec 32
  deriving DecidableEq

def RankPidPair.codec : Codec RankPidPair :=
  (Codec.word.pair Codec.word).via (fun pair => (pair.pid,pair.rank)) (fun fields => ⟨fields.1,fields.2⟩) fun _ => rfl

structure LayoutEntry where
  host : HostField
  numRanks : BitVec 32
  deriving DecidableEq

def LayoutEntry.codec : Codec LayoutEntry :=
  ((Codec.array hostNameMax).pair Codec.word).via (fun entry => (entry.host,entry.numRanks))
    (fun fields => ⟨fields.1,fields.2⟩) fun _ => rfl

def addRank (hostLayouts : OrderedMap CStr (List RankPidPair)) (proc : (CStr × Pid) × Nat) :
    OrderedMap CStr (List RankPidPair) :=
  let rankPidPair : RankPidPair := ⟨proc.1.2,BitVec.ofNat 32 proc.2⟩
  match hostLayouts.find proc.1.1 with
  | none => hostLayouts.insert proc.1.1 [rankPidPair]
  | some pairs => hostLayouts.insert proc.1.1 (pairs ++ [rankPidPair])

def hostLayouts (mpirProctable : Procs) : OrderedMap CStr (List RankPidPair) := mpirProctable.zipIdx.foldl addRank .empty

def makeLayoutFileEntry (layout : CStr × List RankPidPair) : Except String LayoutEntry :=
  if hostNameMax < layout.1.1.length + 1 then .error "hostname too large for layout buffer"
  else .ok ⟨hostField layout.1.1,BitVec.ofNat 32 layout.2.length⟩

def block (layout : CStr × List RankPidPair) : Except String Bytes := do
  let entry ← makeLayoutFileEntry layout
  return LayoutEntry.codec.encode entry ++ RankPidPair.codec.encodeAll layout.2

def createNodeLayoutFile (mpirProctable : Procs) : Except String Bytes := do
  let blocks ← (hostLayouts mpirProctable).entries.mapM block
  return Codec.word.encode (BitVec.ofNat 32 (hostLayouts mpirProctable).entries.length) ++ blocks.flatten

section Reading
variable (hostname : CStr)

-- A failed fseek is not noticed and leaves the position. A negative number of ranks
-- is a size that malloc does not have.
def findEntry : Nat → Reading → Option (List RankPid)
  | 0,_ => none
  | count + 1,file => do
    let (entry,file) ← LayoutEntry.codec.freadOne file
    if domainTest.test hostname.1 entry.host.1 then
      if entry.numRanks.toInt < 0 then none
      else
        let (pids,_) ← RankPidPair.codec.fread entry.numRanks.toNat file
        return pids.map fun pair => (pair.rank.toInt,pair.pid)
    else findEntry count ((file.seek (entry.numRanks.toInt * RankPidPair.codec.size)).getD file)

def getRanksFromFile (bytes : Bytes) : Option (List RankPid) := do
  let (numNodes,file) ← Codec.word.freadOne ⟨bytes,0⟩
  findEntry hostname numNodes.toInt.toNat file

end Reading

def rows (mpirProctable : Procs) : List (CStr × RankPidPair) :=
  mpirProctable.zipIdx.map fun proc => (proc.1.1,⟨proc.1.2,BitVec.ofNat 32 proc.2⟩)

theorem hostLayouts_gather : hostLayouts mpirProctable = .gather (rows mpirProctable) := by
  unfold hostLayouts gather rows
  rw [foldl_map]
  congr 1
  funext layouts proc
  unfold addRank push
  cases layouts.find proc.1.1 <;> rfl

theorem rows_hosts : (rows mpirProctable).map Prod.fst = mpirProctable.map Prod.fst := by
  rw [rows,map_map]
  conv_rhs => rw [← zipIdx_map_fst 0 mpirProctable,map_map]
  rfl

theorem hostLayouts_find (known : host ∈ mpirProctable.map Prod.fst) :
    (hostLayouts mpirProctable).find host = some (valuesOf host (rows mpirProctable)) := by
  rw [hostLayouts_gather,find_gather,if_pos (by rwa [rows_hosts])]

theorem valuesOf_onHost (few : mpirProctable.length ≤ 2 ^ 31) :
    (valuesOf host (rows mpirProctable)).map (fun pair => (pair.rank.toInt,pair.pid)) = onHost mpirProctable host := by
  rw [rows,valuesOf_map fun _ => decide_eq_true_iff,map_map]
  refine map_congr_left fun proc chosen => ?_
  have numbered := (mem_filter.mp chosen).1
  have range := mem_zipIdx (show (proc.1,proc.2) ∈ mpirProctable.zipIdx from numbered)
  exact Prod.ext (word_int (by omega)) rfl

section Entries
variable {hostname : CStr} {file : Reading}

def entry (layout : CStr × List RankPidPair) : LayoutEntry := ⟨hostField layout.1.1,BitVec.ofNat 32 layout.2.length⟩

def encoded (layout : CStr × List RankPidPair) : Bytes :=
  LayoutEntry.codec.encode (entry layout) ++ RankPidPair.codec.encodeAll layout.2

theorem blocks_fit {layouts : List (CStr × List RankPidPair)} (fit : ∀ layout ∈ layouts, layout.1.1.length < hostNameMax) :
    layouts.mapM block = .ok (layouts.map encoded) := by
  induction layouts with
  | nil => rfl
  | cons layout layouts ih =>
    have short : ¬ hostNameMax < layout.1.1.length + 1 := by
      have := fit layout mem_cons_self
      omega
    have here : block layout = .ok (encoded layout) := by
      rw [block,makeLayoutFileEntry,if_neg short]
      rfl
    rw [mapM_cons,here,ih fun layout inside => fit layout (mem_cons_of_mem _ inside)]
    rfl

theorem findEntry_block (rest : file.rest = encoded layout ++ after) (fit : layout.1.1.length < hostNameMax) :
    ∃ next : Reading, next.rest = RankPidPair.codec.encodeAll layout.2 ++ after ∧ findEntry hostname (count + 1) file =
      if domainTest.test hostname.1 layout.1.1 then if (BitVec.ofNat 32 layout.2.length).toInt < 0 then none
        else (RankPidPair.codec.fread (BitVec.ofNat 32 layout.2.length).toNat next).map fun read =>
          read.1.map fun pair => (pair.rank.toInt,pair.pid) else findEntry hostname count
        ((next.seek ((BitVec.ofNat 32 layout.2.length).toInt * RankPidPair.codec.size)).getD next) := by
  have start : file.rest = LayoutEntry.codec.encode (entry layout) ++ (RankPidPair.codec.encodeAll layout.2 ++ after) := by
    rw [rest,encoded,append_assoc]
  have next := rest_after start
  rw [LayoutEntry.codec.length_encode] at next
  refine ⟨_,next,?_⟩
  have here : domainTest.test hostname.1 (entry layout).host.1 = domainTest.test hostname.1 layout.1.1 :=
    domainTest.padded hostname layout.1 fit
  rw [findEntry,LayoutEntry.codec.freadOne_encoded start]
  dsimp only [Option.bind_eq_bind,Option.bind_some]
  rw [here]
  dsimp only [entry]
  by_cases negative : (BitVec.ofNat 32 layout.2.length).toInt < 0
  · simp only [negative,if_true]
  · cases RankPidPair.codec.fread (BitVec.ofNat 32 layout.2.length).toNat
      ⟨file.bytes,file.pos + LayoutEntry.codec.size⟩ <;> rfl

theorem findEntry_found (rest : file.rest = before.flatMap encoded ++ (encoded layout ++ after)) (enough : before.length < count)
    (fit : ∀ other ∈ layout :: before, other.1.1.length < hostNameMax) (few : ∀ other ∈ layout :: before, other.2.length < 2 ^ 31)
    (other : ∀ other ∈ before, domainTest.test hostname.1 other.1.1 = false) (own : domainTest.test hostname.1 layout.1.1 = true) :
    findEntry hostname count file = some (layout.2.map fun pair => (pair.rank.toInt,pair.pid)) := by
  induction before generalizing file count with
  | nil =>
    cases count with
    | zero => cases enough
    | succ count =>
      obtain ⟨next,left,turn⟩ := findEntry_block rest (fit layout mem_cons_self)
      have size := few layout mem_cons_self
      have number : (BitVec.ofNat 32 layout.2.length).toNat = layout.2.length := by
        rw [BitVec.toNat_ofNat]
        omega
      rw [turn,if_pos own,word_int size,if_neg (by omega),number,RankPidPair.codec.fread_encoded left]
      rfl
  | cons first before ih =>
    cases count with
    | zero => cases enough
    | succ count =>
      rw [flatMap_cons,append_assoc] at rest
      have listed : first ∈ layout :: first :: before := mem_cons_of_mem _ mem_cons_self
      obtain ⟨next,left,turn⟩ := findEntry_block rest (fit first listed)
      have size := few first listed
      have skipped := rest_after left
      rw [RankPidPair.codec.length_encodeAll] at skipped
      have sought : (next.seek ((first.2.length : Int) * RankPidPair.codec.size)).getD next =
          ⟨next.bytes,next.pos + first.2.length * RankPidPair.codec.size⟩ := by
        rfl
      rw [turn,other first mem_cons_self,word_int size]
      have kept : ∀ one ∈ layout :: before, one ∈ layout :: first :: before := by
        intro one inside
        rcases mem_cons.mp inside with rfl | later
        · exact mem_cons_self
        · exact mem_cons_of_mem _ (mem_cons_of_mem _ later)
      exact ih skipped (Nat.lt_of_succ_lt_succ enough) (fun one inside => fit one (kept one inside))
        (fun one inside => few one (kept one inside)) fun one inside => other one (mem_cons_of_mem _ inside)

end Entries

section RoundTrip
variable {mpirProctable : Procs} {host : CStr}

theorem hostLayouts_mem (listed : layout ∈ (hostLayouts mpirProctable).entries) :
    layout.1 ∈ mpirProctable.map Prod.fst ∧ layout.2 = valuesOf layout.1 (rows mpirProctable) := by
  have found := (find_mem layout _).mpr listed
  rw [hostLayouts_gather,find_gather,rows_hosts] at found
  split at found
  · rename_i known
    exact ⟨known,(Option.some.inj found).symm⟩
  · cases found

theorem hostLayouts_few (mpirProctable : Procs) : (hostLayouts mpirProctable).entries.length ≤ mpirProctable.length := by
  have inside : (hostLayouts mpirProctable).entries.map Prod.fst ⊆ mpirProctable.map Prod.fst := by
    intro host listed
    obtain ⟨layout,filed,rfl⟩ := mem_map.mp listed
    exact (hostLayouts_mem filed).1
  have fewer := (subperm_of_subset (keys_nodup _) inside).length_le
  rwa [length_map,length_map] at fewer

theorem valuesOf_few : (valuesOf host (rows mpirProctable)).length ≤ mpirProctable.length := by
  have fewer := valuesOf_length_le host (rows mpirProctable)
  have total : (rows mpirProctable).length = mpirProctable.length := by rw [rows,length_map,length_zipIdx]
  omega

theorem append_not_lt {text more : Bytes} : ¬ text ++ more < text := by
  induction text with
  | nil => exact not_lt_nil _
  | cons b text ih => exact fun less => ih ((cons_lt_cons_iff.mp less).resolve_left (lt_irrefl b)).2

theorem prefix_not_lt (starts : host.1 <+: name.1) : ¬ name < host := by
  obtain ⟨more,same⟩ := starts
  intro less
  have less : name.1 < host.1 := less
  rw [← same] at less
  exact append_not_lt less

theorem ranked_ascending : (ranked chosen procs).Pairwise fun one two => one.1 < two.1 := by
  rw [ranked,pairwise_map]
  refine List.Pairwise.filter _ ?_
  have order : (procs.zipIdx.map Prod.snd).Pairwise (· < ·) := by
    rw [zipIdx_map_snd]
    exact pairwise_lt_range'
  exact (pairwise_map.mp order).imp fun less => Int.ofNat_lt.mpr less

theorem pals_layout_round_trip (mpirProctable : Procs) (few : mpirProctable.length < 2 ^ 31)
    (fit : ∀ host ∈ mpirProctable.map Prod.fst, host.1.length < hostNameMax) : ∃ file,
      createNodeLayoutFile mpirProctable = .ok file ∧ ∀ host ∈ mpirProctable.map Prod.fst,
        getRanksFromFile host file = some (onHost mpirProctable host) ∧
          (onHost mpirProctable host).Pairwise fun one two => one.1 < two.1 := by
  have short : ∀ layout ∈ (hostLayouts mpirProctable).entries, layout.1.1.length < hostNameMax :=
    fun layout listed => fit _ (hostLayouts_mem listed).1
  have blocks := blocks_fit short
  have nodes := hostLayouts_few mpirProctable
  refine ⟨_,by rw [createNodeLayoutFile,blocks]; rfl,fun host known => ⟨?_,ranked_ascending⟩⟩
  have filed : (host,valuesOf host (rows mpirProctable)) ∈ (hostLayouts mpirProctable).entries :=
    (find_mem (host,_) _).mp (hostLayouts_find known)
  obtain ⟨before,after,split⟩ := append_of_mem filed
  have sorted := (hostLayouts mpirProctable).sorted
  rw [split] at sorted
  have inside : ∀ layout ∈ (host,valuesOf host (rows mpirProctable)) :: before,
      layout ∈ (hostLayouts mpirProctable).entries := by
    intro layout listed
    rw [split]
    rcases mem_cons.mp listed with rfl | earlier
    · exact mem_append_right _ mem_cons_self
    · exact mem_append_left _ earlier
  have sizes : ∀ layout ∈ (hostLayouts mpirProctable).entries, layout.2.length < 2 ^ 31 := fun layout listed => by
    rw [(hostLayouts_mem listed).2]
    exact Nat.lt_of_le_of_lt valuesOf_few few
  have other : ∀ layout ∈ before, domainTest.test host.1 layout.1.1 = false := by
    intro layout earlier
    have less := (pairwise_append.mp sorted).2.2 layout earlier _ mem_cons_self
    refine Bool.eq_false_iff.mpr fun taken => prefix_not_lt ?_ less
    exact List.isPrefixOf_iff_prefix.mp (Bool.and_eq_true_iff.mp taken).1
  have bytes : ((hostLayouts mpirProctable).entries.map encoded).flatten =
      before.flatMap encoded ++ (encoded (host,valuesOf host (rows mpirProctable)) ++ after.flatMap encoded) := by
    rw [split,← flatMap_def,flatMap_append,flatMap_cons]
  have enough : before.length < ((hostLayouts mpirProctable).entries.length : Int).toNat := by
    rw [split,length_append,length_cons]
    omega
  rw [getRanksFromFile,read_header]
  dsimp only [Option.bind_eq_bind,Option.bind_some]
  rw [word_int (by omega),← valuesOf_onHost (Nat.le_of_lt few)]
  exact findEntry_found (header_rest.trans bytes) enough (fun layout listed => short layout (inside layout listed))
    (fun layout listed => sizes layout (inside layout listed)) other (domainTest.own host)

def mixedTable : Procs :=
  [(⟨ascii "x1",by decide⟩,40),(⟨ascii "x1.dom",by decide⟩,50),(⟨ascii "x1",by decide⟩,41)]

theorem pals_layout_round_trip_mixed : mixedTable.length < 2 ^ 31 ∧ ∃ file, createNodeLayoutFile mixedTable = .ok file ∧
    getRanksFromFile ⟨ascii "x1",by decide⟩ file = some [(0,40),(2,41)] := by
  obtain ⟨file,made,reads⟩ := pals_layout_round_trip mixedTable (by decide) (by decide)
  exact ⟨by decide,file,made,(reads _ mem_cons_self).1⟩

-- All ranks on one host, and more of them than an int counts.
theorem lone_host_missed (lone : ∀ other ∈ mpirProctable.map Prod.fst, other = host)
    (known : host ∈ mpirProctable.map Prod.fst) (fit : host.1.length < hostNameMax)
    (negative : (BitVec.ofNat 32 mpirProctable.length).toInt < 0) : ∃ file,
      createNodeLayoutFile mpirProctable = .ok file ∧ getRanksFromFile host file = none := by
  have filed : (host,valuesOf host (rows mpirProctable)) ∈ (hostLayouts mpirProctable).entries :=
    (find_mem (host,_) _).mp (hostLayouts_find known)
  have only : ∀ layout ∈ (hostLayouts mpirProctable).entries, layout = (host,valuesOf host (rows mpirProctable)) := by
    intro layout listed
    obtain ⟨inside,values⟩ := hostLayouts_mem listed
    have named := lone _ inside
    rw [named] at values
    exact Prod.ext named values
  have entries : (hostLayouts mpirProctable).entries = [(host,valuesOf host (rows mpirProctable))] := by
    have distinct : (hostLayouts mpirProctable).entries.Nodup := List.Nodup.of_map _ (keys_nodup _)
    exact perm_singleton.mp ((perm_ext_iff_of_nodup distinct (nodup_singleton _)).mpr fun layout =>
      ⟨fun listed => mem_singleton.mpr (only layout listed),fun same => mem_singleton.mp same ▸ filed⟩)
  have all : (valuesOf host (rows mpirProctable)).length = mpirProctable.length := by
    rw [valuesOf_all fun row listed => lone _ (rows_hosts ▸ mem_map_of_mem listed),rows,
      length_map,length_map,length_zipIdx]
  have blocks : [(host,valuesOf host (rows mpirProctable))].mapM block = .ok _ :=
    blocks_fit fun layout listed => mem_singleton.mp listed ▸ fit
  refine ⟨_,by rw [createNodeLayoutFile,entries,blocks]; rfl,?_⟩
  rw [getRanksFromFile,read_header]
  dsimp only [Option.bind_eq_bind,Option.bind_some]
  have start : (⟨Codec.word.encode (BitVec.ofNat 32 1) ++ ([(host,valuesOf host (rows mpirProctable))].map encoded).flatten,
      Codec.word.size⟩ : Reading).rest = encoded (host,valuesOf host (rows mpirProctable)) ++ [] :=
    header_rest.trans (by simp)
  obtain ⟨_,_,turn⟩ := findEntry_block start fit
  rwa [if_pos (domainTest.own host),all,if_pos negative] at turn

theorem too_many_ranks_missed : ∃ file, createNodeLayoutFile (List.replicate (2 ^ 31) (⟨ascii "x2",by decide⟩,40)) = .ok file ∧
    getRanksFromFile ⟨ascii "x2",by decide⟩ file = none := by
  have hosts : ∀ other ∈ (List.replicate (2 ^ 31) ((⟨ascii "x2",by decide⟩,40) : CStr × Pid)).map Prod.fst,
      other = ⟨ascii "x2",by decide⟩ := by
    intro other listed
    rw [map_replicate] at listed
    exact (mem_replicate.mp listed).2
  refine lone_host_missed hosts ?_ (by decide) ?_
  · rw [map_replicate]
    exact mem_replicate.mpr ⟨by decide,rfl⟩
  · rw [length_replicate,word_least]
    decide

end RoundTrip

end CommonTools.Placement.Pals
