import Mathlib.Data.List.DropRight
import CommonTools.Library.Scanning
import CommonTools.Library.Tallies
import CommonTools.FeDaemon.Ranks
import CommonTools.Placement.Flux

namespace CommonTools.Placement.Flux
open OrderedMaps Tallies Scanning Numerals FeDaemon List HostPlacement

-- A parsed response: a scalar has data, an array or an object has children.
inductive Ptree where
  | node (data : CStr) (children : List (CStr × Ptree))

def Ptree.data : Ptree → CStr
  | .node data _ => data

def Ptree.children : Ptree → List (CStr × Ptree)
  | .node _ children => children

def Ptree.getChild (root : Ptree) (key : String) : Except String Ptree :=
  match root.children.find? fun child => child.1.1 = ascii key with
  | none => .error ("No such node (" ++ key ++ ")")
  | some child => .ok child.2

-- A number with white space around it at most.
def streamInt (bits : Nat) (text : Bytes) : Option Int :=
  let signed := readSign (text.dropWhile isSpace)
  let digits := signed.2.2.takeWhile isDigit
  let value : Int := if signed.1 then - (digitsValue digits : Int) else digitsValue digits
  if digits = [] ∨ (signed.2.2.dropWhile isDigit).all isSpace = false then none
  else if value < - 2 ^ (bits - 1) ∨ 2 ^ (bits - 1) ≤ value then none
  else some value

def Ptree.getLong (root : Ptree) : Except String Int :=
  match streamInt 64 root.data.1 with
  | none => .error "conversion of data to type \"l\" failed"
  | some value => .ok value

def Ptree.getInt (root : Ptree) : Except String Int :=
  match streamInt 32 root.data.1 with
  | none => .error "conversion of data to type \"i\" failed"
  | some value => .ok value

inductive RangeList where
  | empty
  | range (start last : Int)
  | rle (value count : Int)
  deriving DecidableEq

-- One turn of the loop, with the base it leaves. The length of a run is computed as an int.
def nextRange (first second base : Int) : RangeList × Int :=
  let value := first + base
  if value < 0 then (.empty,0)
  else if second < 0 then (.rle value (Int.bmod (- second + 1) (2 ^ 32)),value)
  else (.range value (value + second),value + second)

def nextRanges (first second : Int) : Nat → Int → List RangeList × Int
  | 0,base => ([],base)
  | count + 1,base =>
    let turn := nextRange first second base
    let rest := nextRanges first second count turn.2
    (turn.1 :: rest.1,rest.2)

def parseRangeList (root : Ptree) (base : Int) : Except String (List RangeList × Int) :=
  if root.data.1 ≠ [] then do
    let value ← root.getLong
    return ([.rle (base + value) 1],base + value)
  else
    match root.children with
    | [first,second] => do
      let first ← first.2.getInt
      let second ← second.2.getInt
      return nextRanges first second 1 base
    | [first,second,times] => do
      let first ← first.2.getInt
      let second ← second.2.getInt
      let times ← times.2.getInt
      return nextRanges first second (Int.bmod (times + 1) (2 ^ 32)).toNat base
    | _ => throw "Flux API rangelist must have size 2 or 3"

def RangeList.values : RangeList → List Int
  | .empty => []
  | .range start last => (List.range (last - start + 1).toNat).map fun i => start + i
  | .rle value count => List.replicate count.toNat value

def addRangeList (state : List Int × Int) (child : CStr × Ptree) : Except String (List Int × Int) := do
  let (rangeList,base) ← parseRangeList child.2 state.2
  return (state.1 ++ rangeList.flatMap RangeList.values,base)

def flattenRangeList (root : Ptree) : Except String (List Int) := do
  let (result,_) ← root.children.foldlM addRangeList ([],0)
  return result

theorem decimalInt_text : 0 ∉ decimalInt value := by
  have digits : ∀ n : Nat, 0 ∉ decimal n := fun n inside => absurd (decimal_digits inside) (by decide)
  unfold decimalInt
  split
  · intro inside
    rcases mem_cons.mp inside with minus | inside
    · cases minus
    · exact digits _ inside
  · exact digits _

def toText (value : Int) : CStr := ⟨decimalInt value,decimalInt_text⟩

def noText : CStr := ⟨[],not_mem_nil⟩

def join (left right : CStr) : CStr :=
  ⟨left.1 ++ right.1,fun inside => (mem_append.mp inside).elim left.2 right.2⟩

-- What func is called with for one element. A list without its two parts is read past
-- its end.
def prefixCalls (element : CStr × Ptree) : Except String (List (CStr × CStr)) :=
  if element.2.data.1 ≠ [] then .ok [(element.2.data,noText)]
  else
    match element.2.children with
    | start :: rangeListObjectArray :: _ => do
      let hostnameSuffixes ← flattenRangeList rangeListObjectArray.2
      if hostnameSuffixes = [] then return [(start.2.data,noText)]
      else return hostnameSuffixes.map fun suffix => (start.2.data,toText suffix)
    | _ => throw "undefined"

def forEachPrefixList (root : Ptree) : Except String (List (CStr × CStr)) := do
  let calls ← root.children.mapM prefixCalls
  return calls.flatten

def splitAtNid (hostname : Bytes) : Bytes × Bytes :=
  if hostname.all isDigit then (hostname,[]) else (hostname.rdropWhile isDigit,hostname.rtakeWhile isDigit)

theorem splitAtNid_text (hostname : CStr) : 0 ∉ (splitAtNid hostname.1).1 ∧ 0 ∉ (splitAtNid hostname.1).2 := by
  unfold splitAtNid
  split
  · exact ⟨hostname.2,not_mem_nil⟩
  · exact ⟨fun inside => hostname.2 ((List.rdropWhile_prefix _ _).subset inside),
      fun inside => hostname.2 ((rtakeWhile_suffix _ _).subset inside)⟩

-- The name of this host tells how many digits the node numbers have.
def reZeroPadNid (gethostname hostnamePrefix hostnameSuffix : CStr) : CStr :=
  let own := splitAtNid gethostname.1
  let hostname := join hostnamePrefix hostnameSuffix
  let parts := splitAtNid hostname.1
  if parts.1.length = own.1.length ∧ parts.2.length < own.2.length then
    ⟨parts.1 ++ List.replicate (own.2.length - parts.2.length) 48 ++ parts.2,by
      have text := splitAtNid_text hostname
      intro inside
      rcases mem_append.mp inside with inside | inside
      · rcases mem_append.mp inside with inside | zeros
        · exact text.1 inside
        · exact absurd (eq_of_mem_replicate zeros) (by decide)
      · exact text.2 inside⟩
  else hostname

section Placing
variable (gethostname : CStr) (root : Ptree)

def hostnames : Except String (List CStr) := do
  let hosts ← root.getChild "hosts"
  let calls ← forEachPrefixList hosts
  return calls.map fun call => reZeroPadNid gethostname call.1 call.2

def ids : Except String (List Int) := do
  let child ← root.getChild "ids"
  flattenRangeList child

def pids : Except String (List Int) := do
  let child ← root.getChild "pids"
  flattenRangeList child

def countHost (hostPlacementMap : OrderedMap CStr HostPlacement) (hostname : CStr) : OrderedMap CStr HostPlacement :=
  let placement := (hostPlacementMap.find hostname).getD ⟨hostname,0,[]⟩
  hostPlacementMap.insert hostname ⟨hostname,placement.numPEs + 1,placement.rankPidPairs⟩

def hostPlacementMap (hosts : List CStr) : OrderedMap CStr HostPlacement := hosts.foldl countHost .empty

def rankPid (pair : Int × Int) : RankPid := ((BitVec.ofInt 32 pair.1).toInt,BitVec.ofInt 32 pair.2)

def place (hosts : List CStr) (pairs : List (Int × Int)) : List HostPlacement :=
  (deal ((hostPlacementMap hosts).entries.map fun row => (row.2,row.2.numPEs)) pairs).map fun row =>
    ⟨row.1.hostname,row.1.numPEs,row.1.rankPidPairs ++ row.2.map rankPid⟩

def makeHostsPlacement : Except String (List HostPlacement) := do
  let hosts ← hostnames gethostname root
  let ranks ← ids root
  let pids ← pids root
  if ranks.length ≠ hosts.length then
    throw ("mismatch between rank and hostname count from Flux API (" ++ toString ranks.length ++ " ranks and " ++
      toString hosts.length ++ " hostname entries")
  if pids.length ≠ hosts.length then
    throw ("mismatch between PID and hostname count from Flux API (" ++ toString pids.length ++ " PIDs and " ++
      toString hosts.length ++ " hostname entries")
  return place hosts (ranks.zip pids)

end Placing

section Following
variable {hosts : List CStr} {pairs : List (Int × Int)}

def HostPlacement.values (placement : HostPlacement) : List (Int × Int) :=
  placement.rankPidPairs.map fun pair => (pair.1,pair.2.toInt)

structure Follows (hosts : List CStr) (pairs : List (Int × Int)) (placements : List HostPlacement) : Prop where
  own : ∀ (i : Nat) host pair, hosts[i]? = some host → pairs[i]? = some pair →
    ∃ placement ∈ placements, placement.hostname = host ∧ pair ∈ placement.values
  once : ∀ pair ∈ pairs, ∃! placement, placement ∈ placements ∧ pair ∈ placement.values
  counted : Counted placements

structure InMapOrder (hosts : List CStr) (pairs : List (Int × Int)) : Prop where
  sorted : hosts.Pairwise (· ≤ ·)
  apart : ∀ (i j : Nat) pair, pairs[i]? = some pair → pairs[j]? = some pair → hosts[i]? = hosts[j]?
  ints : ∀ pair ∈ pairs, (-2 ^ 31 ≤ pair.1 ∧ pair.1 < 2 ^ 31) ∧ -2 ^ 31 ≤ pair.2 ∧ pair.2 < 2 ^ 31

theorem hostPlacementMap_find (hosts : List CStr) (host : CStr) :
    (hostPlacementMap hosts).find host = ((tally hosts).find host).map fun count => mk host count [] := by
  induction hosts using reverseRecOn with
  | nil => rfl
  | append_singleton hosts last ih =>
    have turn : hostPlacementMap (hosts ++ [last]) = countHost (hostPlacementMap hosts) last := by simp [hostPlacementMap]
    rw [turn,tally_snoc,countHost,bump]
    by_cases own : host = last
    · subst own
      rw [ih]
      cases (tally hosts).find host <;> simp
    · simp [own,ih]

def dealt (hosts : List CStr) : List CStr := spread (tally hosts).entries

def shares (hosts : List CStr) : List (HostPlacement × Nat) :=
  (tally hosts).entries.map fun row => (⟨row.1,row.2,[]⟩,row.2)

theorem place_eq (hosts : List CStr) (pairs : List (Int × Int)) : place hosts pairs =
    (deal (shares hosts) pairs).map fun row => ⟨row.1.hostname,row.1.numPEs,row.1.rankPidPairs ++ row.2.map rankPid⟩ := by
  have entries := OrderedMap.entries_mapped (fun host count => mk host count []) (hostPlacementMap_find hosts)
  rw [place,entries,map_map]
  rfl

theorem shares_hosts : (spread (shares hosts)).map HostPlacement.hostname = dealt hosts := by
  rw [spread_map,shares,map_map]
  have same : (tally hosts).entries.map ((fun share : HostPlacement × Nat => (share.1.hostname,share.2)) ∘
      fun row => (mk row.1 row.2 [],row.2)) = (tally hosts).entries := map_id _
  rw [same,dealt]

theorem dealt_length (hosts : List CStr) : (dealt hosts).length = hosts.length := spread_tally_perm.length_eq

theorem shares_length : (spread (shares hosts)).length = hosts.length := by
  rw [← dealt_length,← shares_hosts,length_map]

theorem deal_share (listed : row ∈ deal (shares hosts) pairs) : row.1.rankPidPairs = [] := by
  have share : row.1 ∈ (deal (shares hosts) pairs).map Prod.fst := mem_map_of_mem listed
  rw [deal_map,shares,map_map] at share
  obtain ⟨known,_,same⟩ := mem_map.mp share
  rw [← same]
  rfl

def stored (pair : Int × Int) : Int × Int := ((BitVec.ofInt 32 pair.1).toInt,(BitVec.ofInt 32 pair.2).toInt)

theorem place_rows (same : hosts.length = pairs.length) :
    (place hosts pairs).flatMap (fun placement => placement.values.map fun value => (placement.hostname,value)) =
      (dealt hosts).zip (pairs.map stored) := by
  have rows := deal_zip (shares_length.trans same)
  have mapped := congrArg (List.map (Prod.map hostname stored)) rows
  rw [← zip_map,shares_hosts] at mapped
  rw [← mapped,place_eq,flatMap_map,map_flatMap]
  refine flatMap_congr fun row listed => ?_
  simp [values,deal_share listed,rankPid,stored]

theorem place_hosts : (place hosts pairs).map hostname = (tally hosts).entries.map Prod.fst := by
  have names := congrArg (List.map hostname) (deal_map (shares hosts) pairs)
  rw [place_eq,map_map]
  rwa [map_map,shares,map_map,map_map] at names

theorem place_counted (same : hosts.length = pairs.length) : Counted (place hosts pairs) := by
  intro placement listed
  rw [place_eq] at listed
  obtain ⟨row,dealt,rfl⟩ := mem_map.mp listed
  have share := deal_length (shares_length.trans same) dealt
  obtain ⟨known,_,equal⟩ := mem_map.mp share
  obtain ⟨placement,length⟩ := Prod.mk.inj equal
  have number : row.1.numPEs = row.2.length := by rw [← placement,← length]
  simp [deal_share dealt,number]

theorem placed_iff (same : hosts.length = pairs.length) :
    (∃ placement ∈ place hosts pairs, placement.hostname = host ∧ value ∈ placement.values) ↔
      ∃ i : Nat, (dealt hosts)[i]? = some host ∧ (pairs.map stored)[i]? = some value := by
  have rows := place_rows same
  constructor
  · rintro ⟨placement,listed,rfl,inside⟩
    have row : (placement.hostname,value) ∈ (dealt hosts).zip (pairs.map stored) := by
      rw [← rows]
      exact mem_flatMap.mpr ⟨placement,listed,mem_map_of_mem inside⟩
    obtain ⟨i,found⟩ := mem_iff_getElem?.mp row
    exact ⟨i,getElem?_zip_eq_some.mp found⟩
  · rintro ⟨i,found⟩
    have row := mem_of_getElem? (getElem?_zip_eq_some (z := (host,value)) |>.mpr found)
    rw [← rows] at row
    obtain ⟨placement,listed,inside⟩ := mem_flatMap.mp row
    obtain ⟨_,held,equal⟩ := mem_map.mp inside
    obtain ⟨rfl,rfl⟩ := Prod.mk.inj equal
    exact ⟨placement,listed,rfl,held⟩

theorem stored_small {pair : Int × Int}
    (ints : (-2 ^ 31 ≤ pair.1 ∧ pair.1 < 2 ^ 31) ∧ -2 ^ 31 ≤ pair.2 ∧ pair.2 < 2 ^ 31) : stored pair = pair := by
  rw [stored,BitVec.toInt_ofInt,BitVec.toInt_ofInt,Int.bmod_eq_of_le (by omega) (by omega),
    Int.bmod_eq_of_le (by omega) (by omega)]

theorem stored_ints {pair : Int × Int} : (-2 ^ 31 ≤ (stored pair).1 ∧ (stored pair).1 < 2 ^ 31) ∧
    -2 ^ 31 ≤ (stored pair).2 ∧ (stored pair).2 < 2 ^ 31 := by
  have word : ∀ x : BitVec 32, -2 ^ 31 ≤ x.toInt ∧ x.toInt < 2 ^ 31 := fun x => by
    have low := BitVec.le_toInt x
    have high := BitVec.toInt_lt (x := x)
    omega
  exact ⟨word _,word _⟩

theorem place_same (listed : one ∈ place hosts pairs)
    (listed' : two ∈ place hosts pairs) (named : one.hostname = two.hostname) : one = two := by
  have nodup : ((place hosts pairs).map hostname).Nodup := place_hosts ▸ (tally hosts).keys_nodup
  exact inj_on_of_nodup_map nodup listed listed' named

theorem host_at {pair : Int × Int} {names : List CStr} (same : names.length = pairs.length) {i : Nat}
    (found : pairs[i]? = some pair) : ∃ host, names[i]? = some host := by
  have bound := (List.getElem?_eq_some_iff.mp found).1
  exact ⟨names[i],List.getElem?_eq_getElem (by omega)⟩

theorem follows_inMapOrder (same : hosts.length = pairs.length) (follows : Follows hosts pairs (place hosts pairs)) :
    InMapOrder hosts pairs := by
  have ints : ∀ pair ∈ pairs, (-2 ^ 31 ≤ pair.1 ∧ pair.1 < 2 ^ 31) ∧ -2 ^ 31 ≤ pair.2 ∧ pair.2 < 2 ^ 31 := by
    intro pair inside
    obtain ⟨placement,⟨listed,held⟩,_⟩ := follows.once pair inside
    obtain ⟨i,_,found⟩ := (placed_iff same).mp ⟨placement,listed,rfl,held⟩
    obtain ⟨given,_,rfl⟩ := mem_map.mp (mem_of_getElem? found)
    exact stored_ints
  have kept : pairs.map stored = pairs := by rw [map_congr_left fun pair inside => stored_small (ints pair inside),map_id']
  have one : ∀ {pair host other}, pair ∈ pairs →
      (∃ placement ∈ place hosts pairs, placement.hostname = host ∧ pair ∈ placement.values) →
      (∃ placement ∈ place hosts pairs, placement.hostname = other ∧ pair ∈ placement.values) → host = other := by
    rintro pair host other inside ⟨first,listed,rfl,held⟩ ⟨second,listed',rfl,held'⟩
    exact congrArg hostname ((follows.once pair inside).unique ⟨listed,held⟩ ⟨listed',held'⟩)
  refine ⟨spread_tally_iff.mp (ext_getElem? fun i => ?_),fun i j pair here there => ?_,ints⟩
  · cases found : pairs[i]? with
    | none =>
      have bound := getElem?_eq_none_iff.mp found
      have length := dealt_length hosts
      rw [getElem?_eq_none (by rw [← same] at bound; exact length ▸ bound),getElem?_eq_none (by omega)]
    | some pair =>
      obtain ⟨host,named⟩ := host_at same found
      obtain ⟨other,dealt⟩ := host_at ((dealt_length hosts).trans same) found
      have placed := (placed_iff same).mpr ⟨i,dealt,by rw [kept,found]⟩
      rw [named,← one (mem_of_getElem? found) placed (follows.own i host pair named found)]
      exact dealt
  · obtain ⟨host,named⟩ := host_at same here
    obtain ⟨other,named'⟩ := host_at same there
    rw [named,named',one (mem_of_getElem? here) (follows.own i host pair named here) (follows.own j other pair named' there)]

theorem inMapOrder_follows (same : hosts.length = pairs.length) (ordered : InMapOrder hosts pairs) :
    Follows hosts pairs (place hosts pairs) := by
  have kept : pairs.map stored = pairs := by rw [map_congr_left fun pair inside => stored_small (ordered.ints pair inside),map_id']
  have order : dealt hosts = hosts := spread_tally_iff.mpr ordered.sorted
  have own : ∀ (i : Nat) host pair, hosts[i]? = some host → pairs[i]? = some pair →
      ∃ placement ∈ place hosts pairs, placement.hostname = host ∧ pair ∈ placement.values :=
    fun i host pair named found => (placed_iff same).mpr ⟨i,by rw [order,named],by rw [kept,found]⟩
  refine ⟨own,fun pair inside => ?_,place_counted same⟩
  obtain ⟨i,found⟩ := mem_iff_getElem?.mp inside
  obtain ⟨host,named⟩ := host_at same found
  obtain ⟨placement,listed,rfl,held⟩ := own i host pair named found
  refine ⟨placement,⟨listed,held⟩,fun other ⟨listed',held'⟩ => place_same listed' listed ?_⟩
  obtain ⟨j,named',found'⟩ := (placed_iff same).mp ⟨other,listed',rfl,held'⟩
  rw [order] at named'
  rw [kept] at found'
  have equal := ordered.apart j i pair found' found
  rw [named',named] at equal
  exact Option.some.inj equal

end Following

structure Decodes (gethostname : CStr) (root : Ptree) (hosts : List CStr) (ranks procs : List Int) : Prop where
  names : hostnames gethostname root = .ok hosts
  idList : ids root = .ok ranks
  pidList : pids root = .ok procs
  ranked : ranks.length = hosts.length
  running : procs.length = hosts.length

theorem makeHostsPlacement_ok (decodes : Decodes gethostname root hosts ranks procs) :
    makeHostsPlacement gethostname root = .ok (place hosts (ranks.zip procs)) := by
  unfold makeHostsPlacement
  rw [decodes.names,decodes.idList,decodes.pidList]
  simp [decodes.ranked,decodes.running,bind,Except.bind,pure,Except.pure]

def number (value : Int) : Ptree := .node (toText value) []

def array (elements : List Ptree) : Ptree := .node noText (elements.map fun element => (noText,element))

def loginNode : CStr := ⟨ascii "login1",by decide⟩

def tioga (nid : Int) : CStr := join ⟨ascii "tioga",by decide⟩ (toText nid)

def neighbours (first : Int) : Ptree :=
  .node noText [(⟨ascii "hosts",by decide⟩,array [array [.node ⟨ascii "tioga",by decide⟩ [],
    array [array [number first,number 1]]]]),
    (⟨ascii "ids",by decide⟩,array [array [number 0,number 1]]),
    (⟨ascii "pids",by decide⟩,array [array [number 100,number 1]])]

end CommonTools.Placement.Flux
