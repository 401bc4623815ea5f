import CommonTools.Library.LinkedFiles
import CommonTools.FeDaemon.Wire

namespace CommonTools.Useful.Removal
open FeDaemon LinkedFiles List

abbrev Path := List Bytes
abbrev Files := List (Path × Node Bytes)

inductive Call where
  | opendir
  | asprintf
  | stat
  | remove

-- Any call may be refused, and readdir gives the entries in any order.
structure Host where
  refuses : Call → Path → Bool
  order : Path → List Bytes → List Bytes
  perm : ∀ path names, (order path names).Perm names

section Calls
variable (host : Host) (files : Files) (path : Path)

def pathMax : Nat := 4096

-- At most forty links are followed.
def reach : Option Path :=
  if (path.map fun name => name.length + 1).sum < pathMax then resolve files 41 path else none

def spot : Option Path :=
  match path.getLast? with
  | none => some []
  | some name => (reach files path.dropLast).map (· ++ [name])

def opendir : Option (List Bytes) :=
  if host.refuses .opendir path then none
  else match reach files path with
    | none => none
    | some place => if node files place = some .dir then some (host.order path (ascii "." :: ascii ".." :: listing files place)) else none

def stat : Option (Node Bytes) :=
  if host.refuses .stat path then none else (reach files path).bind (node files)

-- unlink, or rmdir for a directory, which has to be empty and not the root. True stands for 0.
def remove : Bool × Files :=
  if host.refuses .remove path then (false,files)
  else match spot files path with
    | none => (false,files)
    | some place =>
      match node files place with
      | none => (false,files)
      | some .dir =>
        if place = [] ∨ files.any fun entry => place.isPrefixOf entry.1 ∧ entry.1 ≠ place then (false,files)
        else (true,erase files place)
      | some _ => (true,erase files place)

end Calls

section Removing
variable (host : Host)

def removeEntries (inner : Path → Files → Bool × Files) (path : Path) : List Bytes → Files → Bool × Files
  | [],files => (true,files)
  | name :: rest,files =>
    if name = ascii "." ∨ name = ascii ".." then removeEntries inner path rest files
    else if host.refuses .asprintf (path ++ [name]) then (false,files)
    else match stat host files (path ++ [name]) with
      | none => (false,files)
      | some kind =>
        match if kind = .dir then inner (path ++ [name]) files else remove host files (path ++ [name]) with
        | (false,files) => (false,files)
        | (true,files) => removeEntries inner path rest files

-- Each level adds to the path, and the calls refuse a path that is too long.
def removeDirectory : (room : Nat) → Path → Files → Bool × Files
  | 0,_,files => (false,files)
  | room + 1,path,files =>
    match opendir host files path with
    | none => (false,files)
    | some names =>
      match removeEntries host (removeDirectory room) path names files with
      | (false,files) => (false,files)
      | (true,files) => remove host files path

def ctiRemoveDirectory : Option Path → Files → Bool × Files
  | none,files => (false,files)
  | some path,files => removeDirectory host pathMax path files

end Removing

section Meaning

def Bare (files : Files) (place : Path) : Prop := ∀ entry ∈ files, place <+: entry.1 → entry.1 = place

-- A path to a directory, that is one whose own entry is a directory.
structure Tree where
  files : Files
  path : Path
  root : Path
  leads : spot files path = some root
  directory : node files root = some .dir

variable (tree : Tree)

def Tree.removed (host : Host) : Bool × Files := ctiRemoveDirectory host (some tree.path) tree.files

structure Tree.Contained (host : Host) : Prop where
  outside : ∀ place, ¬ tree.root <+: place → node (tree.removed host).2 place = node tree.files place
  gone : (tree.removed host).1 = true → ∀ place, tree.root <+: place → node (tree.removed host).2 place = none

def Plain (name : Bytes) : Prop := ¬ (name = ascii "." ∨ name = ascii "..")

-- What can be reached through the path is an entry of a directory of the tree.
def Tree.Encloses : Prop :=
  ∀ names name, (∀ part ∈ names, Plain part) → Plain name → reach tree.files (tree.path ++ names ++ [name]) ≠ none →
    ∃ place, reach tree.files (tree.path ++ names) = some place ∧ tree.root <+: place

-- An entry that is not in the tree can be reached, and there are no entries below it.
def Tree.Strays : Prop :=
  ∃ names name place target kind, (∀ part ∈ names, Plain part) ∧ Plain name ∧
    reach tree.files (tree.path ++ names) = some place ∧ ¬ tree.root <+: place ++ [name] ∧
    reach tree.files (tree.path ++ names ++ [name]) = some target ∧ node tree.files target = some kind ∧
    (kind = .dir → Bare tree.files target)

end Meaning

section Shrinking
variable {host : Host} {files before after : Files}

theorem reach_shrunk (shrunk : Shrunk before after) (found : reach after path = some place) : reach before path = some place := by
  unfold reach at found ⊢
  split at found
  · rename_i short
    rw [if_pos short]
    exact resolve_shrunk shrunk found
  · cases found

theorem spot_shrunk (shrunk : Shrunk before after) (found : spot after path = some place) : spot before path = some place := by
  unfold spot at found ⊢
  cases last : path.getLast? with
  | none =>
    rwa [last] at found
  | some name =>
    rw [last] at found
    obtain ⟨parent,reached,same⟩ := Option.map_eq_some_iff.mp found
    exact Option.map_eq_some_iff.mpr ⟨parent,reach_shrunk shrunk reached,same⟩

theorem remove_cases (host : Host) (files : Files) (path : Path) : remove host files path = (false,files) ∨
    ∃ place kind, spot files path = some place ∧ place ≠ [] ∧ node files place = some kind ∧
      remove host files path = (true,erase files place) ∧ (kind = .dir → Bare files place) := by
  unfold remove
  split
  · exact .inl rfl
  · cases found : spot files path with
    | none => exact .inl rfl
    | some place =>
      cases there : node files place with
      | none => exact .inl (by simp only [there])
      | some kind =>
        by_cases dir : kind = .dir
        · subst dir
          simp only [there]
          split
          · exact .inl rfl
          · rename_i empty
            refine .inr ⟨place,.dir,rfl,fun root => empty (.inl root),there,rfl,fun _ entry listed below => ?_⟩
            by_contra other
            exact empty (.inr (any_eq_true.mpr ⟨entry,listed,by simp [below,other]⟩))
        · refine .inr ⟨place,kind,rfl,?_,there,?_,fun same => absurd same dir⟩
          · rintro rfl
            exact dir (Option.some.inj there).symm
          · cases kind with
            | dir => exact absurd rfl dir
            | file | link target => simp only [there]

theorem remove_shrunk : Shrunk files (remove host files path).2 := by
  rcases remove_cases host files path with nothing | ⟨place,_,_,below,_,erased,_⟩
  · rw [nothing]
    exact .refl
  · rw [erased]
    exact .erase below

theorem entries_rule (P : Files → Prop) (inner : Path → Files → Bool × Files) (path : Path)
    (step : ∀ name files kind, Plain name → stat host files (path ++ [name]) = some kind → P files →
      P (if kind = .dir then inner (path ++ [name]) files else remove host files (path ++ [name])).2) (start : P files) :
    P (removeEntries host inner path listed files).2 := by
  induction listed generalizing files with
  | nil => exact start
  | cons name rest ih =>
    rw [removeEntries]
    split
    · exact ih start
    · rename_i plain
      split
      · exact start
      · cases found : stat host files (path ++ [name]) with
        | none => exact start
        | some kind =>
          have next := step name files kind plain found start
          dsimp only
          cases done : (if kind = .dir then inner (path ++ [name]) files else remove host files (path ++ [name])) with
          | mk ok files =>
            rw [done] at next
            cases ok with
            | false => exact next
            | true => exact ih next

theorem directory_rule (P : Files → Prop) (start : opendir host files path = none → P files)
    (entries : ∀ listed, opendir host files path = some listed → P (removeEntries host (removeDirectory host room) path listed files).2)
    (last : ∀ files, P files → P (remove host files path).2) : P (removeDirectory host (room + 1) path files).2 := by
  rw [removeDirectory]
  cases opened : opendir host files path with
  | none => exact start opened
  | some listed =>
    have emptied := entries listed opened
    dsimp only
    cases done : removeEntries host (removeDirectory host room) path listed files with
    | mk ok files =>
      rw [done] at emptied
      cases ok with
      | false => exact emptied
      | true => exact last files emptied

theorem entries_shrunk (inner : ∀ path files, Shrunk files (removeDirectory host room path files).2) :
    Shrunk before (removeEntries host (removeDirectory host room) path listed before).2 := by
  refine entries_rule (Shrunk before) _ _ (fun name files kind _ _ shrunk => ?_) .refl
  split
  · exact shrunk.trans (inner _ _)
  · exact shrunk.trans remove_shrunk

theorem directory_shrunk (path : Path) (files : Files) : Shrunk files (removeDirectory host room path files).2 := by
  induction room generalizing path files with
  | zero => exact .refl
  | succ room ih => exact directory_rule (Shrunk files) (fun _ => .refl) (fun _ _ => entries_shrunk ih) fun _ emptied => emptied.trans remove_shrunk

end Shrinking

section Enclosed
variable {host : Host} {files : Files} {tree : Tree}

structure Kept (tree : Tree) (files : Files) : Prop where
  shrunk : Shrunk tree.files files
  outside : ∀ place, ¬ tree.root <+: place → node files place = node tree.files place

theorem remove_kept (inside : spot tree.files path = some place) (below : tree.root <+: place) (kept : Kept tree files) :
    Kept tree (remove host files path).2 := by
  refine ⟨kept.shrunk.trans remove_shrunk,fun other outside => ?_⟩
  rcases remove_cases host files path with nothing | ⟨erased,_,found,proper,_,after,_⟩
  · rw [nothing]
    exact kept.outside other outside
  · cases inside.symm.trans (spot_shrunk kept.shrunk found)
    rw [after,node_erase proper,if_neg (fun same : other = place => outside (same ▸ below))]
    exact kept.outside other outside

theorem stat_reach (found : stat host files path = some kind) : ∃ place, reach files path = some place ∧ node files place = some kind := by
  unfold stat at found
  split at found
  · cases found
  · exact Option.bind_eq_some_iff.mp found

theorem spot_entry (parent : reach files path = some place) : spot files (path ++ [name]) = some (place ++ [name]) := by
  simp [spot,parent]

-- Every path that is removed was found by stat before, so its directory is one of the tree.
theorem directory_kept (encloses : tree.Encloses) (names : List Bytes) (plain : ∀ part ∈ names, Plain part)
    (inside : spot tree.files (tree.path ++ names) = some place) (below : tree.root <+: place) (kept : Kept tree files) :
    Kept tree (removeDirectory host room (tree.path ++ names) files).2 := by
  induction room generalizing names place files with
  | zero => exact kept
  | succ room ih =>
    refine directory_rule (Kept tree) (fun _ => kept) (fun listed _ => ?_) fun _ emptied => remove_kept inside below emptied
    refine entries_rule (Kept tree) _ _ (fun name files kind proper found kept => ?_) kept
    obtain ⟨target,reached,_⟩ := stat_reach found
    have there := reach_shrunk kept.shrunk reached
    obtain ⟨parent,front,within⟩ := encloses names name plain proper (Option.ne_none_iff_exists'.mpr ⟨_,there⟩)
    have deeper : tree.root <+: parent ++ [name] := within.trans (prefix_append _ _)
    split
    · rw [append_assoc]
      refine ih (names ++ [name]) ?_ (append_assoc _ _ _ ▸ spot_entry front) deeper kept
      intro part listed
      rcases mem_append.mp listed with early | last
      · exact plain part early
      · rw [mem_singleton.mp last]
        exact proper
    · exact remove_kept (spot_entry front) deeper kept

-- The last removal takes the tree's root, and rmdir only takes it empty.
theorem directory_gone (done : (removeDirectory host room tree.path tree.files).1 = true) (below : tree.root <+: place) :
    node (removeDirectory host room tree.path tree.files).2 place = none := by
  cases room with
  | zero => cases done
  | succ room =>
    rw [removeDirectory] at done ⊢
    split at done
    · cases done
    · rename_i listed _
      have emptied : Shrunk tree.files (removeEntries host (removeDirectory host room) tree.path listed tree.files).2 :=
        entries_shrunk directory_shrunk
      cases cleared : removeEntries host (removeDirectory host room) tree.path listed tree.files with
      | mk ok files =>
        rw [cleared] at done emptied
        cases ok with
        | false => cases done
        | true =>
          dsimp only at done ⊢
          rcases remove_cases host files tree.path with nothing | ⟨root,kind,found,proper,there,after,empty⟩
          · rw [nothing] at done
            cases done
          · cases tree.leads.symm.trans (spot_shrunk emptied found)
            cases tree.directory.symm.trans (emptied.kept there)
            rw [after,node_erase proper]
            split
            · rfl
            · rename_i other
              refine node_none ?_ fun entry listed same => ?_
              · rintro rfl
                exact proper (prefix_nil.mp below)
              · exact other (same.symm.trans (empty rfl entry listed (same ▸ below)))

end Enclosed

section Straying
variable {files : Files} {tree : Tree}

-- readdir gives the entry on the way to the goal before the others.
def follower (goal : Path) : Host where
  refuses _ _ := false
  order path names :=
    match goal[path.length]? with
    | none => names
    | some name => if names.contains name then name :: names.erase name else names
  perm path names := by
    split
    · exact .rfl
    · split
      · rename_i listed
        exact (perm_cons_erase (contains_iff_mem.mp listed)).symm
      · exact .rfl

theorem reach_entry (found : reach files (path ++ [name]) = some place) :
    ∃ parent kind, reach files path = some parent ∧ node files parent = some .dir ∧
      node files (parent ++ [name]) = some kind ∧ (kind = .dir → place = parent ++ [name]) := by
  unfold reach at found ⊢
  split at found
  · rename_i short
    rw [if_pos (by simp at short ⊢; omega)]
    exact resolve_entry found
  · cases found

theorem reach_front (found : reach files (path ++ name :: more) = some place) :
    ∃ parent, reach files path = some parent ∧ node files parent = some .dir := by
  unfold reach at found ⊢
  split at found
  · rename_i short
    rw [if_pos (by simp at short ⊢; omega)]
    exact resolve_front more found
  · cases found

theorem opendir_follower (more : Path) (reached : reach files path = some place) (dir : node files place = some .dir)
    (there : node files (place ++ [name]) = some kind) :
    ∃ others, opendir (follower (path ++ name :: more)) files path = some (name :: others) := by
  have listed : name ∈ ascii "." :: ascii ".." :: listing files place := by simp [listing_entry there]
  refine ⟨(ascii "." :: ascii ".." :: listing files place).erase name,?_⟩
  simp only [opendir,follower,reached,dir]
  simp [listed]

theorem directory_first (opened : opendir host files path = some (name :: others)) (plain : Plain name)
    (granted : host.refuses .asprintf (path ++ [name]) = false) (found : stat host files (path ++ [name]) = some kind)
    (gone : node (if kind = .dir then removeDirectory host room (path ++ [name]) files else remove host files (path ++ [name])).2 place = none) :
    node (removeDirectory host (room + 1) path files).2 place = none := by
  refine directory_rule (fun after => node after place = none) ?_ ?_ fun _ gone => remove_shrunk.gone gone
  · intro closed
    cases opened.symm.trans closed
  · intro listed again
    cases opened.symm.trans again
    rw [removeEntries,if_neg plain,granted,found]
    dsimp only
    cases done : (if kind = .dir then removeDirectory host room (path ++ [name]) files else remove host files (path ++ [name])) with
    | mk ok files =>
      rw [done] at gone
      cases ok with
      | false => exact gone
      | true => exact (entries_shrunk directory_shrunk).gone gone

theorem stat_follower (reached : reach files path = some place) (there : node files place = some kind) :
    stat (follower goal) files path = some kind := by
  simp [stat,follower,reached,there]

theorem follower_removes (entry : spot files path = some place) (proper : place ≠ []) (there : node files place = some kind)
    (bare : kind = .dir → Bare files place) : node (remove (follower goal) files path).2 place = none := by
  unfold remove
  simp only [follower,entry,there]
  cases kind with
  | dir =>
    have empty : ¬ (place = [] ∨ files.any fun entry => place.isPrefixOf entry.1 ∧ entry.1 ≠ place) := by
      rintro (root | more)
      · exact proper root
      · obtain ⟨entry,listed,below⟩ := any_eq_true.mp more
        obtain ⟨below,other⟩ := of_decide_eq_true below
        exact other (bare rfl entry listed (List.isPrefixOf_iff_prefix.mp below))
    simp [if_neg empty,node_erase proper]
  | file | link target => simp [node_erase proper]

theorem listing_bare (bare : Bare files place) : listing files place = [] := by
  refine filterMap_eq_nil_iff.mpr fun entry listed => ?_
  split
  · rename_i within
    rcases eq_nil_or_concat entry.1 with root | ⟨front,last,concat⟩
    · rw [root]
      rfl
    · rw [concat_eq_append] at concat
      rw [concat,dropLast_concat] at within
      have same := bare entry listed (concat ▸ within ▸ prefix_append _ _)
      rw [concat,within] at same
      simp at same
  · rfl

theorem follower_empties (reached : reach files path = some place) (dir : node files place = some .dir) (bare : Bare files place) :
    removeDirectory (follower path) (left + 1) path files = remove (follower path) files path := by
  have opened : opendir (follower path) files path = some [ascii ".",ascii ".."] := by simp [opendir,follower,reached,dir,listing_bare bare]
  rw [removeDirectory,opened]
  rfl

theorem follower_strays (plain : ∀ part ∈ names, Plain part) (proper : Plain name) (reached : reach files (path ++ names) = some place)
    (found : reach files (path ++ names ++ [name]) = some target) (there : node files target = some kind)
    (bare : kind = .dir → Bare files target) (room : names.length + 1 < left) :
    node (removeDirectory (follower (path ++ names ++ [name])) left path files).2 (place ++ [name]) = none := by
  obtain ⟨left,rfl⟩ := Nat.exists_eq_succ_of_ne_zero (Nat.ne_zero_of_lt room)
  induction names generalizing path left with
  | nil =>
    rw [append_nil] at *
    obtain ⟨parent,own,front,dir,entry,same⟩ := reach_entry found
    cases reached.symm.trans front
    obtain ⟨others,opened⟩ := opendir_follower [] front dir entry
    have removes : node (remove (follower (path ++ [name])) files (path ++ [name])).2 (place ++ [name]) = none := by
      refine follower_removes (spot_entry front) (by simp) entry fun dir => ?_
      cases same dir
      cases there.symm.trans entry
      exact bare dir
    refine directory_first opened proper rfl (stat_follower found there) ?_
    split
    · rename_i dir
      obtain ⟨left,rfl⟩ := Nat.exists_eq_succ_of_ne_zero (Nat.ne_zero_of_lt (Nat.lt_of_succ_lt_succ room))
      rw [follower_empties found (dir ▸ there) (bare dir)]
      exact removes
    · exact removes
  | cons step names ih =>
    have shift : path ++ step :: (names ++ [name]) = path ++ [step] ++ names ++ [name] := by simp
    have onward : path ++ step :: names = path ++ [step] ++ names := by simp
    obtain ⟨second,more,rest⟩ := exists_cons_of_ne_nil (append_ne_nil_of_right_ne_nil names (cons_ne_nil name []))
    rw [onward] at reached found ⊢
    obtain ⟨next,deeper,dir⟩ : ∃ next, reach files (path ++ [step]) = some next ∧ node files next = some .dir := by
      rw [append_assoc,rest] at found
      exact reach_front found
    obtain ⟨parent,own,front,top,entry,_⟩ := reach_entry deeper
    obtain ⟨others,opened⟩ := opendir_follower (names ++ [name]) front top entry
    rw [shift] at opened
    refine directory_first opened (plain step (by simp)) rfl (stat_follower deeper dir) ?_
    obtain ⟨left,rfl⟩ := Nat.exists_eq_succ_of_ne_zero (Nat.ne_zero_of_lt (Nat.lt_of_succ_lt_succ room))
    exact ih (fun part listed => plain part (by simp [listed])) reached found left (Nat.lt_of_succ_lt_succ room)

theorem reach_short (found : reach files path = some place) : path.length < pathMax := by
  have counted : path.length ≤ (path.map fun name => name.length + 1).sum := by
    clear found
    induction path with
    | nil => exact Nat.le_refl 0
    | cons name path ih =>
      simp only [length_cons,map_cons,sum_cons]
      omega
  unfold reach at found
  split at found
  · omega
  · cases found

end Straying

-- In between, what is reached outside is never a file and never an empty directory.
theorem removal_contained (tree : Tree) :
    (tree.Encloses → ∀ host, tree.Contained host) ∧ (tree.Strays → ∃ host, ¬ tree.Contained host) := by
  constructor
  · intro encloses host
    refine ⟨fun place outside => ?_,fun done place below => directory_gone done below⟩
    have leads : spot tree.files (tree.path ++ []) = some tree.root := (append_nil tree.path).symm ▸ tree.leads
    have kept : Kept tree (removeDirectory host pathMax (tree.path ++ []) tree.files).2 :=
      directory_kept encloses [] (by simp) leads prefix_rfl ⟨.refl,fun _ _ => rfl⟩
    rw [append_nil] at kept
    exact kept.outside place outside
  · rintro ⟨names,name,place,target,kind,plain,proper,reached,outside,found,there,bare⟩
    have room := reach_short found
    simp only [length_append,length_singleton] at room
    have gone := follower_strays plain proper reached found there bare (show names.length + 1 < pathMax by omega)
    obtain ⟨parent,own,front,_,entry,_⟩ := reach_entry found
    cases reached.symm.trans front
    refine ⟨follower (tree.path ++ names ++ [name]),fun contained => ?_⟩
    cases (gone.symm.trans (contained.outside _ outside)).trans entry

-- A link to a directory elsewhere: what lies there is removed with it.
def linkedTree : Tree where
  files := [([ascii "tmp"],.dir),([ascii "tmp",ascii "data"],.link [ascii "home"]),([ascii "home"],.dir),
    ([ascii "home",ascii "file"],.file)]
  path := [ascii "tmp"]
  root := [ascii "tmp"]
  leads := by decide
  directory := by decide

def listedHost : Host := ⟨fun _ _ => false,fun _ names => names,fun _ _ => .rfl⟩

theorem target_emptied : linkedTree.removed listedHost = (true,[([ascii "home"],.dir)]) ∧ ¬ linkedTree.Contained listedHost := by
  have emptied : linkedTree.removed listedHost = (true,[([ascii "home"],.dir)]) := by decide
  refine ⟨emptied,fun contained => ?_⟩
  have kept := contained.outside [ascii "home",ascii "file"] (by decide)
  rw [emptied] at kept
  exact absurd kept (by decide)

end CommonTools.Useful.Removal
