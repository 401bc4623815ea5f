import CommonTools.Library.Numerals
import CommonTools.Library.OrderedMaps
import CommonTools.Library.Programs

namespace CommonTools.Interface
open Numerals OrderedMaps Programs List

-- cti_app_id_t, cti_session_id_t and cti_manifest_id_t are int64_t.
abbrev Handle := BitVec 64

instance handleOrder : LinearOrder Handle := LinearOrder.lift' BitVec.toNat fun _ _ same => BitVec.eq_of_toNat_eq same

-- FE_iface::Registry. In place of a weak_ptr stands the object it was made from,
-- and whether that is still there is for its owner to say.
structure Handles (κ : Type) where
  list : OrderedMap Handle κ
  lastId : Handle

abbrev HandlesM (κ : Type) := EStateM String (Handles κ)

def showHandle (id : Handle) : String := toString id.toInt

namespace Handles
variable {κ : Type}

def start : Handles κ := ⟨.empty,0⟩

def erased (handles : Handles κ) (id : Handle) : Handles κ := {handles with list := handles.list.erase id}

-- std::unordered_map::emplace keeps an entry that is there.
def added (handles : Handles κ) (object : κ) : Handles κ where
  list := match handles.list.find (handles.lastId + 1) with
    | some _ => handles.list
    | none => handles.list.insert (handles.lastId + 1) object
  lastId := handles.lastId + 1

def erase (id : Handle) : HandlesM κ Unit := modify (·.erased id)

def add (object : κ) : HandlesM κ Handle := modifyGet fun handles => (handles.lastId + 1,handles.added object)

section Lookup
variable (alive : κ → Bool)

def isValid (id : Handle) : HandlesM κ Bool := do
  match (← get).list.find id with
  | none => return false
  | some object =>
    if alive object then return true
    else
      erase id
      return false

def getHandle (id : Handle) : HandlesM κ κ := do
  match (← get).list.find id with
  | none => throw ("ID " ++ showHandle id ++ " invalid")
  | some object =>
    if alive object then return object
    else
      erase id
      throw ("ID " ++ showHandle id ++ " is no longer valid")

def held (handles : Handles κ) (id : Handle) : Option κ := (handles.list.find id).filter alive

variable {alive} {handles : Handles κ} {id : Handle}

theorem held_iff : handles.held alive id = some object ↔ handles.list.find id = some object ∧ alive object = true := by
  simp [held,Option.filter_eq_some_iff]

theorem isValid_eq : isValid alive id handles =
    .ok (handles.held alive id).isSome (if (handles.held alive id).isSome then handles else handles.erased id) := by
  unfold isValid
  rw [get_after]
  cases found : handles.list.find id with
  | none => simp only [held,found,erased,OrderedMap.erase_absent found]; rfl
  | some object => cases living : alive object <;> simp only [held,found,Option.filter,living] <;> rfl

theorem getHandle_held (held : handles.held alive id = some object) : getHandle alive id handles = .ok object handles := by
  obtain ⟨found,living⟩ := held_iff.mp held
  unfold getHandle
  rw [get_after]
  simp only [found,living]
  rfl

theorem getHandle_unheld (unheld : handles.held alive id = none) :
    ∃ message, getHandle alive id handles = .error message (handles.erased id) := by
  unfold getHandle
  rw [get_after]
  cases found : handles.list.find id with
  | none => simp only [erased,OrderedMap.erase_absent found]; exact ⟨_,rfl⟩
  | some object =>
    have gone : alive object = false := by simpa [Handles.held,found,Option.filter] using unheld
    simp only [gone]
    exact ⟨_,rfl⟩

theorem held_erased : (handles.erased id).held alive other = if other = id then none else handles.held alive other := by
  unfold Handles.held erased
  by_cases same : other = id
  · simp [same]
  · simp [same]

theorem held_pruned (unheld : handles.held alive id = none) : (handles.erased id).held alive = handles.held alive := by
  funext other
  rw [held_erased]
  split
  · rename_i same; rw [same,unheld]
  · rfl

theorem held_congr (agree : ∀ object, handles.list.find id = some object → alive' object = alive object) :
    handles.held alive' id = handles.held alive id := by
  unfold held
  cases found : handles.list.find id with
  | none => rfl
  | some object => simp [Option.filter,agree object found]

end Lookup

section Numbers
variable {handles : Handles κ} {ids : List Handle} {id : Handle}

-- The next id is one more, as long as that is an int64_t.
def Room (handles : Handles κ) : Prop := handles.lastId.toInt < 2 ^ 63 - 1

structure Numbered (handles : Handles κ) (ids : List Handle) : Prop where
  last : handles.lastId = BitVec.ofNat 64 ids.length
  issued : ids = counted 64 ids.length
  few : ids.length < 2 ^ 63
  known : ∀ id, (handles.list.find id).isSome = true → id ∈ ids

theorem numbered_start : (start : Handles κ).Numbered [] := ⟨rfl,rfl,by simp,nofun⟩

section
variable (numbered : handles.Numbered ids)
include numbered

theorem numbered_nodup : ids.Nodup := by
  rw [numbered.issued]
  exact counted_nodup (Nat.lt_of_lt_of_le numbered.few (by simp))

theorem numbered_fresh (room : handles.Room) : handles.lastId + 1 ∉ ids ∧ (ids ++ [handles.lastId + 1]).length < 2 ^ 63 := by
  have few := numbered.few
  have small : ids.length + 1 < 2 ^ 63 := by
    unfold Room at room
    rw [numbered.last,BitVec.toInt_eq_toNat_of_lt (by simp; omega)] at room
    simp at room
    omega
  refine ⟨fun inside => ?_,by simpa using small⟩
  rw [numbered.issued,numbered.last] at inside
  obtain ⟨n,below,same⟩ := mem_counted.mp inside
  have equal := congrArg BitVec.toNat same
  simp at equal
  omega

theorem fresh_unfound (fresh : id ∉ ids) : handles.list.find id = none := by
  by_contra found
  exact fresh (numbered.known id (Option.isSome_iff_ne_none.mpr found))

theorem find_added (room : handles.Room) :
    (handles.added object).list.find id = if id = handles.lastId + 1 then some object else handles.list.find id := by
  rw [added,fresh_unfound numbered (numbered_fresh numbered room).1]
  by_cases same : id = handles.lastId + 1
  · simp [same]
  · simp [same]

theorem held_added (room : handles.Room) (living : alive' object = true)
    (agree : ∀ other, handles.list.find id = some other → alive' other = alive other) :
    (handles.added object).held alive' id = if id = handles.lastId + 1 then some object else handles.held alive id := by
  rw [← held_congr agree]
  unfold held
  rw [find_added numbered room]
  split
  · simp [Option.filter,living]
  · rfl

theorem issued_before (room : handles.Room) (issued : id ∈ ids) : id ≠ handles.lastId + 1 := by
  rintro rfl
  exact (numbered_fresh numbered room).1 issued

theorem held_before (room : handles.Room) (held : handles.held alive id = some object) : id ≠ handles.lastId + 1 :=
  issued_before numbered room (numbered.known id (Option.isSome_of_eq_some (held_iff.mp held).1))

theorem numbered_added (room : handles.Room) (object : κ) : (handles.added object).Numbered (ids ++ [handles.lastId + 1]) := by
  have next : handles.lastId + 1 = BitVec.ofNat 64 (ids.length + 1) := by
    rw [numbered.last,BitVec.ofNat_add]
    rfl
  refine ⟨?_,?_,(numbered_fresh numbered room).2,?_⟩
  · simpa [added] using next
  · rw [length_append,length_singleton,counted_succ,← numbered.issued,next]
  · intro id found
    rw [find_added numbered room] at found
    split at found
    · rename_i same; simp [same]
    · exact mem_append_left _ (numbered.known id found)

end

theorem numbered_paired {pairs : List (Handle × Handle)} (numbered : handles.Numbered (pairs.map Prod.fst))
    (room : handles.Room) (object : κ) (other : Handle) :
    (handles.added object).Numbered ((pairs ++ [(handles.lastId + 1,other)]).map Prod.fst) := by
  rw [map_append]
  exact numbered_added numbered room object

theorem numbered_erased (numbered : handles.Numbered ids) : (handles.erased id).Numbered ids := by
  refine ⟨numbered.last,numbered.issued,numbered.few,fun other found => ?_⟩
  simp only [erased,OrderedMap.find_erase] at found
  split at found
  · cases found
  · exact numbered.known other found

end Numbers

end Handles

end CommonTools.Interface
