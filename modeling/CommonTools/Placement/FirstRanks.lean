import CommonTools.Library.Scanning
import CommonTools.Placement.Pals

namespace CommonTools.Placement.FirstRanks
open OrderedMaps Occurrences Scanning Numerals FeDaemon
open List hiding after lookup

-- A host name of the proctable: a word, and short enough for the layout file, which
-- is written before.
abbrev HostName := {text : Bytes // text ≠ [] ∧ text.length < hostNameMax ∧ ∀ b ∈ text, isSpace b = false ∧ b ≠ 0}

abbrev RankInfo := OrderedMap HostName (Nat × BitVec 32)

def addRank (rankInfoByHost : RankInfo) (proc : HostName × Nat) : RankInfo :=
  match rankInfoByHost.find proc.1 with
  | none => rankInfoByHost.insert proc.1 (proc.2,1)
  | some (first,num) => rankInfoByHost.insert proc.1 (min first proc.2,num + 1)

def rankInfoByHost (hosts : List HostName) : RankInfo := hosts.zipIdx.foldl addRank .empty

def line (row : HostName × Nat × BitVec 32) : Bytes :=
  row.1.1 ++ 32 :: (decimal row.2.1 ++ 32 :: (decimalInt row.2.2.toInt ++ [newline]))

def createPmixFirstRankFile (hosts : List HostName) : Bytes := (rankInfoByHost hosts).entries.flatMap line

def pathMax : Nat := 4096

def hostnamesMatchByPrefix (a b : Bytes) : Bool :=
  let minlen := min a.length b.length
  decide (a.take minlen = b.take minlen)

def scanLine (text : Bytes) : Option (Bytes × Int × Int) := do
  let (file_host,text) ← scanWord 1023 text
  let (first_rank,text) ← scanLong text
  let (num_ranks,_) ← scanLong text
  return (file_host,first_rank,num_ranks)

def cached (value : Int) : Int := if 0 ≤ value then (BitVec.ofInt 32 value).toInt else -1

-- Every line that is read takes bytes away from the file.
def findLine (hostname : HostName) : Nat → Bytes → Int × Int
  | 0,_ => (-1,-1)
  | fuel + 1,file =>
    match fgets pathMax file with
    | none => (-1,-1)
    | some (text,file) =>
      match scanLine text with
      | none => findLine hostname fuel file
      | some (file_host,first_rank,num_ranks) =>
        if hostnamesMatchByPrefix hostname.1 file_host then (cached first_rank,cached num_ranks)
        else findLine hostname fuel file

def getNodeinfoFromFallback (hostname : HostName) (file : Bytes) : Option (Int × Int) :=
  let found := findLine hostname file.length file
  if found.1 < 0 ∧ found.2 < 0 then none else some found

def Obtained (hosts : List HostName) : Prop :=
  ∀ host ∈ hosts, getNodeinfoFromFallback host (createPmixFirstRankFile hosts) =
    some ((hosts.idxOf host : Int),(hosts.count host : Int))

section Grouping
variable {hosts : List HostName}

theorem addRank_find : (addRank info proc).find host =
    if host = proc.1 then some ((info.find host).elim (proc.2,1) fun known => (min known.1 proc.2,known.2 + 1)) else info.find host := by
  unfold addRank
  by_cases own : host = proc.1
  · subst own
    cases info.find proc.1 <;> simp
  · cases info.find proc.1 <;> simp [own]

theorem rankInfo_find : (rankInfoByHost hosts).find host =
    if host ∈ hosts then some (hosts.idxOf host,BitVec.ofNat 32 (hosts.count host)) else none := by
  induction hosts using reverseRecOn with
  | nil => rfl
  | append_singleton hosts last ih =>
    have turn : rankInfoByHost (hosts ++ [last]) = addRank (rankInfoByHost hosts) (last,hosts.length) := by
      simp [rankInfoByHost,zipIdx_append]
    rw [turn,addRank_find,ih]
    by_cases own : host = last
    · subst own
      by_cases known : host ∈ hosts
      · have early := idxOf_lt_length_of_mem known
        simp [known,idxOf_append_of_mem known,Nat.min_eq_left (Nat.le_of_lt early),BitVec.ofNat_add]
      · simp [known,idxOf_append,count_eq_zero.mpr known]
    · by_cases known : host ∈ hosts
      · simp [known,own,idxOf_append_of_mem known,count_append,Ne.symm own]
      · simp [known,own]

theorem rankInfo_mem (listed : row ∈ (rankInfoByHost hosts).entries) :
    row.1 ∈ hosts ∧ row.2 = (hosts.idxOf row.1,BitVec.ofNat 32 (hosts.count row.1)) := by
  have found := (OrderedMap.find_mem row _).mpr listed
  rw [rankInfo_find] at found
  split at found
  · rename_i known
    exact ⟨known,(Option.some.inj found).symm⟩
  · cases found

theorem rankInfo_filed (known : host ∈ hosts) :
    (host,hosts.idxOf host,BitVec.ofNat 32 (hosts.count host)) ∈ (rankInfoByHost hosts).entries := by
  refine (OrderedMap.find_mem (host,_) _).mp ?_
  rw [rankInfo_find,if_pos known]

end Grouping

section Lines
variable {hostname : HostName}

def Small (row : HostName × Nat × BitVec 32) : Prop := row.2.1 < 2 ^ 31 ∧ 0 ≤ row.2.2.toInt

theorem int_bound : (BitVec.ofInt 32 value).toInt < 2 ^ 31 := by
  have := BitVec.toInt_lt (x := BitVec.ofInt 32 value)
  omega

theorem cached_bound : cached value < 2 ^ 31 := by
  unfold cached
  split
  · exact int_bound
  · decide

theorem cached_nat {n : Nat} (small : n < 2 ^ 31) : cached n = n := by
  exact word_int small

theorem findLine_bound (hostname : HostName) (fuel : Nat) (file : Bytes) :
    (findLine hostname fuel file).1 < 2 ^ 31 ∧ (findLine hostname fuel file).2 < 2 ^ 31 := by
  have unset : (-1 : Int) < 2 ^ 31 := by decide
  induction fuel generalizing file with
  | zero => exact ⟨unset,unset⟩
  | succ fuel ih =>
    rw [findLine]
    split
    · exact ⟨unset,unset⟩
    · split
      · exact ih _
      · split
        · exact ⟨cached_bound,cached_bound⟩
        · exact ih _

theorem newline_digits : newline ∉ decimal n := fun inside => by
  have digit := decimal_digits inside
  exact absurd digit (by decide)

theorem line_parts (small : Small row) : ∃ n : Nat, n < 2 ^ 31 ∧
    row.2.2.toInt = n ∧ line row = (row.1.1 ++ 32 :: (decimal row.2.1 ++ 32 :: decimal n)) ++ [newline] := by
  have high := BitVec.toInt_lt (x := row.2.2)
  obtain ⟨n,value⟩ := Int.eq_ofNat_of_zero_le small.2
  refine ⟨n,by omega,value,?_⟩
  rw [line,value,decimalInt_nat]
  simp

theorem fgets_row (small : Small row) : fgets pathMax (line row ++ after) = some (line row,after) := by
  obtain ⟨n,bound,_,parts⟩ := line_parts small
  rw [parts,append_assoc]
  refine fgets_line ?_ ?_
  · intro inside
    have name : newline ∉ row.1.1 := fun listed => absurd (row.1.2.2.2 _ listed).1 (by decide)
    rcases mem_append.mp inside with listed | listed
    · exact name listed
    · rcases mem_cons.mp listed with blank | listed
      · exact absurd blank (by decide)
      · rcases mem_append.mp listed with digits | listed
        · exact newline_digits digits
        · rcases mem_cons.mp listed with blank | digits
          · exact absurd blank (by decide)
          · exact newline_digits digits
  · have name : row.1.1.length < 64 := row.1.2.2.1
    have first := decimal_length small.1
    have second := decimal_length bound
    simp only [length_append,length_cons,pathMax]
    omega

theorem scanLine_row (small : Small row) : scanLine (line row) = some (row.1.1,(row.2.1 : Int),row.2.2.toInt) := by
  obtain ⟨n,bound,value,parts⟩ := line_parts small
  have low := small.1
  have name : row.1.1.length < 64 := row.1.2.2.1
  have word := scanWord_word 32 row.1.2.1 (fun b inside => (row.1.2.2.2 b inside).1)
    (show row.1.1.length ≤ 1023 by omega) (by decide) (decimal row.2.1 ++ 32 :: (decimal n ++ [newline]))
  have first := scanLong_decimal (n := row.2.1) (by omega) 32 (by decide) (decimal n ++ [newline])
  have second := scanLong_decimal (n := n) (by omega) newline (by decide) []
  have text : line row = row.1.1 ++ 32 :: (decimal row.2.1 ++ 32 :: (decimal n ++ [newline])) := by simp [parts]
  rw [scanLine,text,word]
  dsimp only [Option.bind_eq_bind,Option.bind_some]
  rw [first]
  dsimp only [Option.bind_some]
  rw [second,value]
  rfl

theorem findLine_rows {rows : List (HostName × Nat × BitVec 32)} (small : ∀ row ∈ rows, Small row) {fuel : Nat}
    (enough : rows.length ≤ fuel) : findLine hostname fuel (rows.flatMap line) =
      ((rows.find? fun row => hostnamesMatchByPrefix hostname.1 row.1.1).map fun row => ((row.2.1 : Int),row.2.2.toInt)).getD (-1,-1) := by
  induction rows generalizing fuel with
  | nil => cases fuel <;> rfl
  | cons row rows ih =>
    cases fuel with
    | zero => cases enough
    | succ fuel =>
      have here := small row mem_cons_self
      have low := here.1
      have high := BitVec.toInt_lt (x := row.2.2)
      obtain ⟨n,value⟩ := Int.eq_ofNat_of_zero_le here.2
      rw [flatMap_cons,findLine,fgets_row here]
      dsimp only
      rw [scanLine_row here]
      by_cases own : hostnamesMatchByPrefix hostname.1 row.1.1 = true
      · simp only [own,if_true,List.find?_cons,Option.map_some,Option.getD_some,cached_nat low,value]
        exact congrArg _ (cached_nat (by omega))
      · simp only [own,List.find?_cons]
        exact ih (fun row inside => small row (mem_cons_of_mem _ inside)) (Nat.le_of_succ_le_succ enough)

end Lines

section Agreement
variable {hosts : List HostName}

theorem match_iff : hostnamesMatchByPrefix a b = true ↔ a <+: b ∨ b <+: a := by
  unfold hostnamesMatchByPrefix
  rw [decide_eq_true_iff]
  rcases Nat.le_total a.length b.length with short | short
  · rw [Nat.min_eq_left short,take_length]
    constructor
    · intro same
      exact .inl (same ▸ List.take_prefix _ _)
    · rintro (starts | starts)
      · exact (prefix_iff_eq_take.mp starts)
      · have same := starts.eq_of_length_le short
        rw [same,take_length]
  · rw [Nat.min_eq_right short,take_length]
    constructor
    · intro same
      exact .inr (same ▸ List.take_prefix _ _)
    · rintro (starts | starts)
      · have same := starts.eq_of_length_le short
        rw [same,take_length]
      · exact (prefix_iff_eq_take.mp starts).symm

-- What the ints of the reader and its comparison of names need.
structure Distinguished (hosts : List HostName) : Prop where
  first : ∀ host ∈ hosts, hosts.idxOf host < 2 ^ 31
  count : ∀ host ∈ hosts, hosts.count host < 2 ^ 31
  apart : ∀ one ∈ hosts, ∀ two ∈ hosts, one.1 <+: two.1 → one = two

theorem rows_small (first : ∀ host ∈ hosts, hosts.idxOf host < 2 ^ 31) (count : ∀ host ∈ hosts, hosts.count host < 2 ^ 31) :
    ∀ row ∈ (rankInfoByHost hosts).entries, Small row := by
  intro row listed
  obtain ⟨known,values⟩ := rankInfo_mem listed
  rw [Small,values]
  exact ⟨first _ known,by dsimp only; rw [word_int (count _ known)]; omega⟩

theorem rows_fuel {rows : List (HostName × Nat × BitVec 32)} : rows.length ≤ (rows.flatMap line).length := by
  induction rows with
  | nil => exact Nat.le_refl _
  | cons row rows ih =>
    have taken : 0 < (line row).length := by simp [line]
    rw [flatMap_cons,length_append,length_cons]
    omega

theorem fallback_rows (first : ∀ host ∈ hosts, hosts.idxOf host < 2 ^ 31) (count : ∀ host ∈ hosts, hosts.count host < 2 ^ 31)
    (found : (rankInfoByHost hosts).entries.find? (fun row => hostnamesMatchByPrefix host.1 row.1.1) = some row) :
    getNodeinfoFromFallback host (createPmixFirstRankFile hosts) = some ((hosts.idxOf row.1 : Int),(hosts.count row.1 : Int)) := by
  have listed := mem_of_find?_eq_some found
  obtain ⟨known,values⟩ := rankInfo_mem listed
  unfold getNodeinfoFromFallback createPmixFirstRankFile
  rw [findLine_rows (rows_small first count) rows_fuel,found,Option.map_some,Option.getD_some,values]
  rw [word_int (count _ known),if_neg (by omega)]

theorem match_found (known : host ∈ hosts) : ∃ row,
    (rankInfoByHost hosts).entries.find? (fun row => hostnamesMatchByPrefix host.1 row.1.1) = some row :=
  Option.isSome_iff_exists.mp (List.find?_isSome.mpr
    ⟨_,rankInfo_filed known,match_iff.mpr (.inl prefix_rfl)⟩)

theorem idxOf_same (known : one ∈ hosts) (known' : two ∈ hosts) (same : hosts.idxOf one = hosts.idxOf two) : one = two := by
  have first := getElem_idxOf known
  rw [same,getElem_idxOf known'] at first
  exact (Option.some.inj first).symm

theorem obtained_of_distinguished (distinguished : Distinguished hosts) : Obtained hosts := by
  intro host known
  obtain ⟨row,found⟩ := match_found known
  have listed := (rankInfo_mem (mem_of_find?_eq_some found)).1
  have matched : hostnamesMatchByPrefix host.1 row.1.1 = true :=
    List.find?_some (p := fun row : HostName × Nat × BitVec 32 => hostnamesMatchByPrefix host.1 row.1.1) found
  have own : row.1 = host := by
    rcases match_iff.mp matched with starts | starts
    · exact (distinguished.apart host known row.1 listed starts).symm
    · exact distinguished.apart row.1 listed host known starts
  rw [fallback_rows distinguished.first distinguished.count found,own]

theorem distinguished_of_obtained (obtained : Obtained hosts) : Distinguished hosts := by
  have ints : ∀ host ∈ hosts, (hosts.idxOf host : Int) < 2 ^ 31 ∧ (hosts.count host : Int) < 2 ^ 31 := by
    intro host known
    have read := obtained host known
    have bound := findLine_bound host (createPmixFirstRankFile hosts).length (createPmixFirstRankFile hosts)
    unfold getNodeinfoFromFallback at read
    dsimp only at read
    split at read
    · cases read
    · rwa [Option.some.inj read] at bound
  have first : ∀ host ∈ hosts, hosts.idxOf host < 2 ^ 31 := fun host known => by
    have := (ints host known).1
    omega
  have count : ∀ host ∈ hosts, hosts.count host < 2 ^ 31 := fun host known => by
    have := (ints host known).2
    omega
  refine ⟨first,count,fun one known two known' starts => ?_⟩
  by_contra other
  obtain ⟨row,found⟩ := match_found known'
  have read := obtained two known'
  rw [fallback_rows first count found] at read
  have same := idxOf_same (rankInfo_mem (mem_of_find?_eq_some found)).1 known'
    (Int.ofNat.inj (congrArg Prod.fst (Option.some.inj read)))
  -- The shorter name stands before the longer one and matches it as well.
  obtain ⟨_,before,after,split,earlier⟩ := List.find?_eq_some_iff_append.mp found
  have filed := rankInfo_filed known
  have sorted := (rankInfoByHost hosts).sorted
  rw [split] at filed sorted
  rcases mem_append.mp filed with sooner | later
  · have refused := earlier _ sooner
    rw [match_iff.mpr (.inr starts)] at refused
    cases refused
  · rcases mem_cons.mp later with equal | later
    · exact other ((congrArg Prod.fst equal).trans same)
    · have less : row.1 < one := (pairwise_cons.mp (pairwise_append.mp sorted).2.1).1 _ later
      rw [same] at less
      obtain ⟨more,longer⟩ := starts
      have less : two.1 < one.1 := less
      rw [← longer] at less
      exact Pals.append_not_lt less

end Agreement

-- Every host of a proctable obtains its own numbers exactly if no name starts
-- another one and the numbers are ints.
theorem first_ranks_exact (hosts : List HostName) : Obtained hosts ↔ Distinguished hosts :=
  ⟨distinguished_of_obtained,obtained_of_distinguished⟩

def nidOne : HostName := ⟨ascii "nid1",by decide +kernel⟩

def nidTen : HostName := ⟨ascii "nid10",by decide +kernel⟩

theorem nids_together : Together [nidOne,nidOne,nidTen] := by
  refine block_together fun x listed i low high => ?_
  have places : ∀ x ∈ [nidOne,nidOne,nidTen], ∀ i < 3, [nidOne,nidOne,nidTen].idxOf x ≤ i →
      i < [nidOne,nidOne,nidTen].idxOf x + [nidOne,nidOne,nidTen].count x → [nidOne,nidOne,nidTen][i]? = some x := by
    decide
  have ends : ∀ x ∈ [nidOne,nidOne,nidTen],
      [nidOne,nidOne,nidTen].idxOf x + [nidOne,nidOne,nidTen].count x ≤ 3 := by decide
  exact places x listed i (Nat.lt_of_lt_of_le high (ends x listed)) low high

-- The line of the shorter name is taken on the longer one, although the ranks of both
-- are consecutive.
theorem longer_name_misled : Together [nidOne,nidOne,nidTen] ∧
    getNodeinfoFromFallback nidTen (createPmixFirstRankFile [nidOne,nidOne,nidTen]) = some (0,2) ∧ ¬ Obtained [nidOne,nidOne,nidTen] := by
  have misled : getNodeinfoFromFallback nidTen (createPmixFirstRankFile [nidOne,nidOne,nidTen]) = some (0,2) := by decide
  refine ⟨nids_together,misled,fun obtained => ?_⟩
  have read := obtained nidTen (by decide)
  rw [misled] at read
  exact absurd read (by decide)

end CommonTools.Placement.FirstRanks
