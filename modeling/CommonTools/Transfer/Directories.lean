import CommonTools.Transfer.FileCopy

namespace CommonTools.Transfer.Archives
open FeDaemon List

structure FileName where
  text : Bytes
  some' : text ≠ []
  notSelf : text ≠ [46]
  notParent : text ≠ [46,46]

-- What stat finds at a path: a regular file, a directory that opendir opens or not, another
-- kind of file, or nothing (a link to nowhere).
mutual
inductive Node where
  | file (copy : FileCopy)
  | directory (listing : Listing)
  | closed
  | special
  | dangling
-- What readdir gives, entry by entry, with the entries . and .. among the others.
inductive Listing where
  | done
  | self (rest : Listing)
  | parent (rest : Listing)
  | child (name : FileName) (node : Node) (rest : Listing)
end

structure ArchiveEntry where
  pathname : Bytes
  data : Option Bytes

def skipsName (name : Bytes) : Bool := [46].isPrefixOf name || [46,46].isPrefixOf name

def below (path : Bytes) (name : Bytes) : Bytes := path ++ 47 :: name

-- The entries in the order of their headers; no value where the data of a file do not come to an end.
mutual
def addPath (fuel : Nat) (entryPath path : Bytes) : Node → ExceptT Bytes Option (List ArchiveEntry)
  | .file copy => do
    let entry ← ExceptT.mk (addFile fuel false copy)
    return [⟨entryPath,some entry.written⟩]
  | .directory listing => do
    let entries ← addDir fuel entryPath path listing
    return ⟨entryPath,none⟩ :: entries
  | .closed => throw (path ++ ascii " failed opendir call")
  | .special => throw (path ++ ascii " has invalid file type.")
  | .dangling => throw (path ++ ascii " failed stat call")
def addDir (fuel : Nat) (entryPath dirPath : Bytes) : Listing → ExceptT Bytes Option (List ArchiveEntry)
  | .done => return []
  | .self rest => addDir fuel entryPath dirPath rest
  | .parent rest => addDir fuel entryPath dirPath rest
  | .child name node rest =>
    if skipsName name.text then addDir fuel entryPath dirPath rest
    else do
      let first ← addPath fuel (below entryPath name.text) (below dirPath name.text) node
      let entries ← addDir fuel entryPath dirPath rest
      return first ++ entries
end

mutual
def Node.paths (entryPath : Bytes) : Node → List Bytes
  | .directory listing => entryPath :: listing.paths entryPath
  | _ => [entryPath]
def Listing.paths (entryPath : Bytes) : Listing → List Bytes
  | .done => []
  | .self rest => rest.paths entryPath
  | .parent rest => rest.paths entryPath
  | .child name node rest => node.paths (below entryPath name.text) ++ rest.paths entryPath
end

def Node.Archived (node : Node) (entryPath path : Bytes) : Prop :=
  ∃ fuel entries, addPath fuel entryPath path node = some (.ok entries) ∧ entries.map ArchiveEntry.pathname = node.paths entryPath

mutual
def Node.Visible : Node → Prop
  | .directory listing => listing.Visible
  | _ => True
def Listing.Visible : Listing → Prop
  | .done => True
  | .self rest => rest.Visible
  | .parent rest => rest.Visible
  | .child name node rest => name.text.head? ≠ some 46 ∧ node.Visible ∧ rest.Visible
end

mutual
def Node.Usable : Node → Prop
  | .file copy => ∃ fuel entry, addFile fuel false copy = some (.ok entry)
  | .directory listing => listing.Usable
  | _ => False
def Listing.Usable : Listing → Prop
  | .done => True
  | .self rest => rest.Usable
  | .parent rest => rest.Usable
  | .child _ node rest => node.Usable ∧ rest.Usable
end

section Inversion
variable {α β : Type}

theorem ended_bind :
    (act >>= follow : ExceptT Bytes Option β) = some (.ok result) ↔ ∃ value, act = some (.ok value) ∧ follow value = some (.ok result) := by
  constructor
  · intro ended
    match act,ended with
    | some (.ok value),ended => exact ⟨value,rfl,ended⟩
    | some (.error what),ended | none,ended => cases ended
  · rintro ⟨value,rfl,rest⟩
    exact rest

theorem ended_pure : (pure value : ExceptT Bytes Option α) = some (.ok result) ↔ value = result := by
  constructor
  · intro same
    cases same
    rfl
  · rintro rfl
    rfl

theorem skipsName_iff : skipsName name = true ↔ name.head? = some 46 := by
  cases name with
  | nil => simp [skipsName]
  | cons b rest =>
    simp only [skipsName,isPrefixOf,Bool.and_true,Bool.or_eq_true,Bool.and_eq_true,beq_iff_eq,List.head?_cons,Option.some.injEq]
    exact ⟨fun either => either.elim Eq.symm fun both => both.1.symm,fun same => .inl same.symm⟩

end Inversion

theorem paths_ne (node : Node) (entryPath : Bytes) : 0 < (node.paths entryPath).length := by
  cases node <;> simp [Node.paths]

-- Never more entries than paths; and where there are as many, nothing was left out.
mutual
theorem addPath_counted (ended : addPath fuel entryPath path node = some (.ok entries)) : entries.length ≤ (node.paths entryPath).length ∧
      (entries.length = (node.paths entryPath).length → node.Visible ∧ node.Usable) := by
  match node with
  | .file copy =>
    obtain ⟨entry,copied,rest⟩ := ended_bind.mp ended
    cases ended_pure.mp rest
    exact ⟨Nat.le_refl _,fun _ => ⟨trivial,fuel,entry,copied⟩⟩
  | .directory listing =>
    obtain ⟨found,listed,rest⟩ := ended_bind.mp ended
    cases ended_pure.mp rest
    obtain ⟨fewer,all⟩ := addDir_counted listed
    refine ⟨Nat.succ_le_succ fewer,fun same => all (Nat.succ.inj same)⟩
  | .closed => cases ended
  | .special => cases ended
  | .dangling => cases ended
theorem addDir_counted {fuel : Nat} {entryPath dirPath : Bytes} {listing : Listing} {entries : List ArchiveEntry}
    (ended : addDir fuel entryPath dirPath listing = some (.ok entries)) : entries.length ≤ (listing.paths entryPath).length ∧
      (entries.length = (listing.paths entryPath).length → listing.Visible ∧ listing.Usable) := by
  match listing with
  | .done =>
    cases ended_pure.mp ended
    exact ⟨Nat.le_refl _,fun _ => ⟨trivial,trivial⟩⟩
  | .self rest => exact @addDir_counted fuel entryPath dirPath rest entries ended
  | .parent rest => exact @addDir_counted fuel entryPath dirPath rest entries ended
  | .child name node rest =>
    rw [addDir] at ended
    rw [Listing.paths,length_append]
    split at ended
    · obtain ⟨fewer,_⟩ := addDir_counted ended
      have own := paths_ne node (below entryPath name.text)
      exact ⟨by omega,fun same => absurd same (by omega)⟩
    · rename_i shown
      obtain ⟨first,own,ended⟩ := ended_bind.mp ended
      obtain ⟨others,later,ended⟩ := ended_bind.mp ended
      cases ended_pure.mp ended
      obtain ⟨fewer,all⟩ := addPath_counted own
      obtain ⟨fewerRest,allRest⟩ := addDir_counted later
      rw [length_append]
      refine ⟨by omega,fun same => ?_⟩
      obtain ⟨visible,usable⟩ := all (by omega)
      obtain ⟨visibleRest,usableRest⟩ := allRest (by omega)
      exact ⟨⟨fun dot => shown (skipsName_iff.mpr dot),visible,visibleRest⟩,usable,usableRest⟩
end

-- With enough fuel every path has its entry, in the order of the listing.
mutual
theorem addPath_complete (visible : node.Visible) (usable : node.Usable) :
    ∃ enough, ∀ fuel, enough ≤ fuel → ∃ entries, addPath fuel entryPath path node = some (.ok entries) ∧
      entries.map ArchiveEntry.pathname = node.paths entryPath := by
  match node with
  | .file copy =>
    obtain ⟨enough,entry,copied⟩ := usable
    refine ⟨enough,fun fuel within => ⟨[⟨entryPath,some entry.written⟩],?_,rfl⟩⟩
    exact ended_bind.mpr ⟨entry,addFile_more within copied,rfl⟩
  | .directory listing =>
    obtain ⟨enough,listed⟩ := addDir_complete listing visible usable entryPath path
    refine ⟨enough,fun fuel within => ?_⟩
    obtain ⟨entries,added,paths⟩ := listed fuel within
    exact ⟨⟨entryPath,none⟩ :: entries,ended_bind.mpr ⟨entries,added,rfl⟩,congrArg (entryPath :: ·) paths⟩
theorem addDir_complete (listing : Listing) (visible : listing.Visible) (usable : listing.Usable) (entryPath dirPath : Bytes) :
    ∃ enough, ∀ fuel, enough ≤ fuel → ∃ entries, addDir fuel entryPath dirPath listing = some (.ok entries) ∧
      entries.map ArchiveEntry.pathname = listing.paths entryPath := by
  match listing with
  | .done => exact ⟨0,fun _ _ => ⟨[],rfl,rfl⟩⟩
  | .self rest => exact addDir_complete rest visible usable entryPath dirPath
  | .parent rest => exact addDir_complete rest visible usable entryPath dirPath
  | .child name node rest =>
    obtain ⟨shown,visible,visibleRest⟩ := visible
    obtain ⟨usable,usableRest⟩ := usable
    obtain ⟨enough,own⟩ := addPath_complete visible usable
    obtain ⟨enoughRest,others⟩ := addDir_complete rest visibleRest usableRest entryPath dirPath
    refine ⟨max enough enoughRest,fun fuel within => ?_⟩
    obtain ⟨first,added,paths⟩ := own fuel (by omega)
    obtain ⟨entries,addedRest,pathsRest⟩ := others fuel (by omega)
    refine ⟨first ++ entries,?_,by rw [map_append,paths,pathsRest,Listing.paths]⟩
    rw [addDir,if_neg (by rwa [skipsName_iff])]
    exact ended_bind.mpr ⟨first,added,ended_bind.mpr ⟨entries,addedRest,rfl⟩⟩
end

def emptyFile : FileCopy where
  filePath := ascii "f"
  archivePath := ascii "a"
  opened := true
  blocks := []
  sized := by simp
  memory _ := 0
  answers _ := .takes 0

def hiddenName : FileName := ⟨ascii ".config",by decide,by decide,by decide⟩

def hiddenTree : Node := .directory (.self (.parent (.child hiddenName (.file emptyFile) .done)))

end CommonTools.Transfer.Archives
