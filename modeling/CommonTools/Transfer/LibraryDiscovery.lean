import CommonTools.Library.Texts
import CommonTools.FeDaemon.Wire

namespace CommonTools.Transfer.Discovery
open Texts FeDaemon List

def manifestBlacklist : Bytes := ascii "/lib:/lib64:/usr/lib:/usr/lib64"

def blacklistDirs (env : Option Bytes) : List Bytes := ((env.getD manifestBlacklist).splitOn 58).filter (· ≠ [])

def isBlacklisted (env : Option Bytes) (library : Bytes) : Bool := (blacklistDirs env).any (·.isPrefixOf library)

structure Found where
  linkerFound : Bool
  saved : List Bytes

def saveString (linker : Bytes) (env : Option Bytes) (state : Found) (libstr : Bytes) : Found :=
  if !state.linkerFound && linker.isPrefixOf libstr then {state with linkerFound := true}
  else if isBlacklisted env libstr then state
  else {state with saved := state.saved ++ [libstr]}

-- The walk over the bytes from start on: the strings, and what is left over. At first the end
-- pointer is one further than start.
def walk : Nat → Bool → Bytes → List Bytes × Bytes
  | 0,_,text => ([],text)
  | fuel + 1,first,text =>
    if (if first then 2 else 1) < text.length then
      match text.dropWhile (· ≠ 0) with
      | [] => ([],text)
      | _ :: rest => (text.takeWhile (· ≠ 0) :: (walk fuel false rest).1,(walk fuel false rest).2)
    else ([],text)

-- A read puts its bytes behind what was left over, and the walk looks at as many bytes as were read.
def readBuffer (left chunk : Bytes) : List Bytes × Bytes := walk chunk.length true ((left ++ chunk).take chunk.length)

structure Reading where
  left : Bytes
  found : Found

def readChunk (linker : Bytes) (env : Option Bytes) (state : Reading) (chunk : Bytes) : Reading :=
  let (strings,left) := readBuffer state.left chunk
  ⟨left,strings.foldl (saveString linker env) state.found⟩

def ldVal (linker : Bytes) (env : Option Bytes) (chunks : List Bytes) : List Bytes :=
  (chunks.foldl (readChunk linker env) ⟨[],⟨false,[]⟩⟩).found.saved

def readBufLen : Nat := 1024

structure LibraryPath where
  text : Bytes
  plain : 0 ∉ text
  short : text.length < readBufLen

def terminated (strings : List Bytes) : Bytes := strings.flatMap (· ++ [0])

def Fits : Bytes → List Bytes → Prop
  | _,[] => True
  | left,chunk :: chunks => chunk ≠ [] ∧ left.length + chunk.length ≤ readBufLen ∧ Fits (readBuffer left chunk).2 chunks

instance decideFits : ∀ left chunks, Decidable (Fits left chunks)
  | _,[] => .isTrue trivial
  | left,chunk :: chunks =>
    have := decideFits (readBuffer left chunk).2 chunks
    inferInstanceAs (Decidable (_ ∧ _ ∧ _))

structure Delivery where
  paths : List LibraryPath
  chunks : List Bytes
  fits : Fits [] chunks
  all : chunks.flatten = terminated (paths.map LibraryPath.text)

def Delivery.texts (delivery : Delivery) : List Bytes := delivery.paths.map LibraryPath.text

def inDirectory (directory path : Bytes) : Bool :=
  if directory.getLast? == some 47 then directory.isPrefixOf path else (directory ++ [47]).isPrefixOf path

def inBlacklist (env : Option Bytes) (path : Bytes) : Bool := (blacklistDirs env).any (inDirectory · path)

def wanted (linker : Bytes) (env : Option Bytes) (paths : List Bytes) : List Bytes :=
  (paths.erase linker).filter (!inBlacklist env ·)

-- The read ends with the terminator of a path that is not empty, and has three bytes at least.
def Whole (chunk : Bytes) : Prop := ∃ front b, front ≠ [] ∧ b ≠ 0 ∧ chunk = front ++ [b,0]

-- No path is passed over for the beginning it has in common with the linker or a directory. The
-- second case of linkers is the one where the path passed over and the linker are not wanted anyway.
structure Precise (linker : Bytes) (env : Option Bytes) (paths : List Bytes) : Prop where
  directories : ∀ path ∈ paths.erase linker, isBlacklisted env path = true → inBlacklist env path = true
  linkers : ∀ path, paths.find? linker.isPrefixOf = some path →
    path = linker ∨ inBlacklist env path = true ∧ (linker ∈ paths → isBlacklisted env linker = true)

theorem inBlacklist_listed (inside : inBlacklist env path = true) : isBlacklisted env path = true := by
  simp only [inBlacklist,isBlacklisted,any_eq_true] at inside ⊢
  obtain ⟨directory,member,inside⟩ := inside
  refine ⟨directory,member,?_⟩
  unfold inDirectory at inside
  split at inside
  · exact inside
  · rw [List.isPrefixOf_iff_prefix] at inside ⊢
    exact (prefix_append directory [47]).trans inside

theorem saveString_found {strings saved : List Bytes} : strings.foldl (saveString linker env) ⟨true,saved⟩ =
      ⟨true,saved ++ strings.filter (!isBlacklisted env ·)⟩ := by
  induction strings generalizing saved with
  | nil => simp
  | cons libstr strings ih => cases listed : isBlacklisted env libstr <;> simp [saveString,listed,ih]

theorem saveString_saved {linker : Bytes} {strings saved : List Bytes} : (strings.foldl (saveString linker env) ⟨false,saved⟩).saved =
      saved ++ (strings.eraseP linker.isPrefixOf).filter (!isBlacklisted env ·) := by
  induction strings generalizing saved with
  | nil => simp
  | cons libstr strings ih =>
    cases begins : linker.isPrefixOf libstr with
    | true => simp [saveString,begins,saveString_found]
    | false => cases listed : isBlacklisted env libstr <;> simp [saveString,begins,listed,ih]

theorem eraseP_first {paths : List Bytes} {begins : Bytes → Bool}
    (first : paths.find? begins = some path) : paths.eraseP begins = paths.erase path := by
  induction paths with
  | nil => simp at first
  | cons head paths ih =>
    cases starts : begins head with
    | true =>
      have same : head = path := by simpa [starts] using first
      subst same
      simp [starts]
    | false =>
      have later : paths.find? begins = some path := by simpa [starts] using first
      have other : head ≠ path := by
        intro same
        have := List.find?_some later
        rw [← same,starts] at this
        exact absurd this (by simp)
      simp [starts,ih later,other]

theorem erase_unseen {paths : List Bytes} {keep : Bytes → Bool} (unseen : keep path = false) :
    (paths.erase path).filter keep = paths.filter keep := by
  induction paths with
  | nil => rfl
  | cons head paths ih =>
    by_cases same : head = path
    · subst same; simp [unseen]
    · simp [same,filter_cons,ih]

theorem directories_of_filtered {paths strings : List Bytes} (same : strings.filter (!isBlacklisted env ·) = wanted linker env paths) :
    ∀ path ∈ paths.erase linker, isBlacklisted env path = true → inBlacklist env path = true := by
  intro path member listed
  by_contra outside
  have kept : path ∈ wanted linker env paths := by simpa [wanted,member] using outside
  simp [← same,listed] at kept

theorem filtered_of_directories (directories : ∀ path ∈ paths.erase linker, isBlacklisted env path = true → inBlacklist env path = true) :
    (paths.erase linker).filter (!isBlacklisted env ·) = wanted linker env paths := by
  apply filter_congr
  intro path member
  have listed : isBlacklisted env path = inBlacklist env path := Bool.eq_iff_iff.mpr ⟨directories path member,inBlacklist_listed⟩
  simp [listed]

theorem linkers_of_filtered (first : paths.find? linker.isPrefixOf = some path) (other : path ≠ linker)
    (same : (paths.erase path).filter (!isBlacklisted env ·) = wanted linker env paths) :
    inBlacklist env path = true ∧ (linker ∈ paths → isBlacklisted env linker = true) := by
  have member := mem_of_find?_eq_some first
  constructor
  · by_contra outside
    have inside : path ∈ paths.erase linker := (mem_erase_of_ne other).mpr member
    have unlisted : isBlacklisted env path = false := by
      by_contra listed
      have := directories_of_filtered same path inside (by simpa using listed)
      simp [outside] at this
    have counts := congrArg (List.count path) same
    rw [wanted,count_filter (by simp [unlisted]),count_filter (by simp [outside]),
      count_erase_self,count_erase_of_ne other] at counts
    have := count_pos_iff.mpr member
    omega
  · intro present
    by_contra unlisted
    have outside : inBlacklist env linker = false := by
      by_contra inside
      have := inBlacklist_listed (by simpa using inside : inBlacklist env linker = true)
      simp [unlisted] at this
    have counts := congrArg (List.count linker) same
    rw [wanted,count_filter (by simp [unlisted]),count_filter (by simp [outside]),
      count_erase_self,count_erase_of_ne (Ne.symm other)] at counts
    have := count_pos_iff.mpr present
    omega

theorem filtered_iff {linker : Bytes} {paths : List Bytes} :
    (paths.eraseP linker.isPrefixOf).filter (!isBlacklisted env ·) = wanted linker env paths ↔ Precise linker env paths := by
  cases first : paths.find? linker.isPrefixOf with
  | none =>
    have none' : ∀ path ∈ paths, ¬linker.isPrefixOf path = true := by simpa using first
    have absent : linker ∉ paths := fun member =>
      none' linker member (List.isPrefixOf_iff_prefix.mpr (prefix_refl linker))
    rw [eraseP_of_forall_not none']
    constructor
    · intro same
      exact ⟨directories_of_filtered same,by simp [first]⟩
    · intro precise
      have := filtered_of_directories precise.directories
      rwa [erase_of_not_mem absent] at this
  | some path =>
    rw [eraseP_first first]
    by_cases own : path = linker
    · subst own
      constructor
      · intro same
        exact ⟨directories_of_filtered same,by simp [first]⟩
      · exact fun precise => filtered_of_directories precise.directories
    · constructor
      · intro same
        refine ⟨directories_of_filtered same,?_⟩
        intro path' first'
        obtain rfl : path = path' := by simpa [first] using first'
        exact .inr (linkers_of_filtered first own same)
      · intro precise
        obtain rfl | ⟨inside,listed⟩ := precise.linkers path first
        · exact absurd rfl own
        · rw [erase_unseen (by simp [inBlacklist_listed inside]),← filtered_of_directories precise.directories]
          by_cases present : linker ∈ paths
          · rw [erase_unseen (by simp [listed present])]
          · rw [erase_of_not_mem present]

@[simp]
theorem terminated_cons : terminated (string :: strings) = string ++ 0 :: terminated strings := by
  simp [terminated]

@[simp]
theorem terminated_nil : terminated [] = [] := rfl

theorem terminated_append : terminated (left ++ right) = terminated left ++ terminated right := by
  simp [terminated]

theorem terminated_inj (plain : ∀ string ∈ left, 0 ∉ string) (plain' : ∀ string ∈ right, 0 ∉ string)
    (same : terminated left = terminated right) : left = right := by
  induction left generalizing right with
  | nil =>
    cases right with
    | nil => rfl
    | cons string strings => simp at same
  | cons string strings ih =>
    cases right with
    | nil => simp at same
    | cons string' strings' =>
      simp only [terminated_cons] at same
      obtain ⟨rfl,rest⟩ := append_sep_inj (plain string (by simp)) (plain' string' (by simp)) same
      rw [ih (fun s member => plain s (mem_cons_of_mem _ member))
        (fun s member => plain' s (mem_cons_of_mem _ member)) rest]

theorem walk_short (short : ¬(if first then 2 else 1) < text.length) : walk fuel first text = ([],text) := by
  cases fuel with
  | zero => rfl
  | succ fuel => simp only [walk,if_neg short]

theorem walk_unended (plain : 0 ∉ text) : walk fuel first text = ([],text) := by
  cases fuel with
  | zero => rfl
  | succ fuel =>
    by_cases long : (if first then 2 else 1) < text.length
    · simp only [walk,if_pos long,dropWhile_free plain]
    · exact walk_short long

theorem walk_string (plain : 0 ∉ string) (long : (if first then 2 else 1) < (string ++ 0 :: rest).length) :
    walk (fuel + 1) first (string ++ 0 :: rest) = (string :: (walk fuel false rest).1,(walk fuel false rest).2) := by
  simp only [walk,if_pos long,dropWhile_sep plain,takeWhile_sep plain]

theorem walk_parts (fuel : Nat) (first : Bool) (text : Bytes) : (∀ string ∈ (walk fuel first text).1, 0 ∉ string) ∧
      terminated (walk fuel first text).1 ++ (walk fuel first text).2 = text := by
  induction fuel generalizing first text with
  | zero => simp [walk]
  | succ fuel ih =>
    by_cases long : (if first then 2 else 1) < text.length
    · by_cases null : 0 ∈ text
      · obtain ⟨string,rest,rfl,plain⟩ := eq_append_cons_of_mem null
        obtain ⟨plains,whole⟩ := ih false rest
        rw [walk_string plain long]
        exact ⟨by simpa using ⟨plain,plains⟩,by simp [whole]⟩
      · simp [walk_unended null]
    · simp [walk_short long]

def Ended (text : Bytes) : Prop := ∃ front b, b ≠ 0 ∧ text = front ++ [b,0]

theorem Ended.null (ended : Ended text) : 0 ∈ text := by
  obtain ⟨front,b,_,rfl⟩ := ended
  simp

theorem Ended.long (ended : Ended text) : 1 < text.length := by
  obtain ⟨front,b,_,rfl⟩ := ended
  simp

theorem ended_single (plain : 0 ∉ string) (some : string ≠ []) : Ended (string ++ [0]) := by
  obtain ⟨front,b,rfl⟩ := eq_nil_or_concat string |>.resolve_left some
  refine ⟨front,b,?_,by simp⟩
  intro null
  simp [null] at plain

theorem ended_behind (more : rest ≠ []) : Ended (string ++ 0 :: rest) ↔ Ended rest := by
  constructor
  · intro ⟨front,b,nonzero,same⟩
    obtain ⟨most,last,rfl⟩ := eq_nil_or_concat rest |>.resolve_left more
    have ends : string ++ 0 :: most = front ++ [b] ∧ last = 0 := by
      have : (string ++ 0 :: most) ++ [last] = (front ++ [b]) ++ [0] := by simpa using same
      simpa using append_inj' this rfl
    obtain ⟨ends,rfl⟩ := ends
    -- The byte before the last is not the terminator of the string in front.
    rcases eq_nil_or_concat most with rfl | ⟨most,last,rfl⟩
    · have : b = 0 := by simpa using (append_inj' ends rfl).2.symm
      exact absurd this nonzero
    · have : (string ++ 0 :: most) ++ [last] = front ++ [b] := by simpa using ends
      have : last = b := by simpa using (append_inj' this rfl).2
      exact ⟨most,last,this ▸ nonzero,by simp⟩
  · intro ⟨front,b,nonzero,same⟩
    exact ⟨string ++ 0 :: front,b,nonzero,by simp [same]⟩

theorem walk_left (enough : text.length ≤ fuel) : (walk fuel false text).2 = [] ↔ text = [] ∨ Ended text := by
  induction fuel generalizing text with
  | zero =>
    have : text = [] := by simpa using enough
    simp [walk,this]
  | succ fuel ih =>
    by_cases long : 1 < text.length
    · by_cases null : 0 ∈ text
      · obtain ⟨string,rest,rfl,plain⟩ := eq_append_cons_of_mem null
        rw [walk_string plain (by simpa using long),ih (by simp at enough; omega)]
        by_cases more : rest = []
        · subst more
          have some : string ≠ [] := by intro none; simp [none] at long
          simp [ended_single plain some]
        · simp [more,ended_behind more]
      · have unended : ¬Ended text := fun ended => null ended.null
        simp [walk_unended null,unended]
    · have unended : ¬Ended text := fun ended => long ended.long
      have stays : walk (fuel + 1) false text = ([],text) := walk_short (by simpa using long)
      simp [stays,unended]

theorem whole_iff : Whole chunk ↔ 2 < chunk.length ∧ Ended chunk := by
  constructor
  · intro ⟨front,b,begun,nonzero,same⟩
    have := length_pos_iff.mpr begun
    exact ⟨by simp [same]; omega,front,b,nonzero,same⟩
  · intro ⟨long,front,b,nonzero,same⟩
    refine ⟨front,b,?_,nonzero,same⟩
    intro none
    simp [same,none] at long

theorem readBuffer_whole (some : chunk ≠ []) : (readBuffer [] chunk).2 = [] ↔ Whole chunk := by
  have text : readBuffer [] chunk = walk chunk.length true chunk := by simp [readBuffer]
  rw [text,whole_iff]
  by_cases long : 2 < chunk.length
  · have later : walk chunk.length true chunk = walk chunk.length false chunk := by
      obtain ⟨fuel,length⟩ := Nat.exists_eq_add_of_lt long
      have longer : 1 < chunk.length := by omega
      rw [length]
      simp only [walk,if_true,if_pos long,Bool.false_eq_true,if_false,if_pos longer]
    rw [later,walk_left (Nat.le_refl _)]
    simp [some,long]
  · have stays : walk chunk.length true chunk = ([],chunk) := walk_short (by simpa using long)
    simp [stays,some,long]

section Delivering

def delivered : Bytes → List Bytes → List Bytes
  | _,[] => []
  | left,chunk :: chunks => (readBuffer left chunk).1 ++ delivered (readBuffer left chunk).2 chunks

theorem readBuffer_length (left chunk : Bytes) :
    (terminated (readBuffer left chunk).1).length + (readBuffer left chunk).2.length = chunk.length := by
  have parts := congrArg List.length (walk_parts chunk.length true ((left ++ chunk).take chunk.length)).2
  simpa [readBuffer] using parts

theorem delivered_length (left : Bytes) (chunks : List Bytes) : (terminated (delivered left chunks)).length ≤ chunks.flatten.length := by
  induction chunks generalizing left with
  | nil => simp [delivered]
  | cons chunk chunks ih =>
    have read := readBuffer_length left chunk
    have rest := ih (readBuffer left chunk).2
    simp only [delivered,terminated_append,length_append,flatten_cons]
    omega

-- A byte left over by a read takes the place of one of the next read, so nothing makes up for it.
theorem whole_of_length (some : ∀ chunk ∈ chunks, chunk ≠ [])
    (length : chunks.flatten.length ≤ (terminated (delivered [] chunks)).length) : ∀ chunk ∈ chunks, Whole chunk := by
  induction chunks with
  | nil => simp
  | cons chunk chunks ih =>
    have read := readBuffer_length [] chunk
    have rest := delivered_length (readBuffer [] chunk).2 chunks
    simp only [delivered,terminated_append,length_append,flatten_cons] at length
    have clean : (readBuffer [] chunk).2 = [] := eq_nil_of_length_eq_zero (by omega)
    rw [clean] at length rest
    intro chunk' member
    rcases mem_cons.mp member with rfl | member
    · exact (readBuffer_whole (some _ (by simp))).mp clean
    · exact ih (fun c member => some c (mem_cons_of_mem _ member)) (by omega) chunk' member

theorem Whole.some (whole : Whole chunk) : chunk ≠ [] := by
  obtain ⟨front,b,_,_,rfl⟩ := whole
  simp

theorem delivered_whole (whole : ∀ chunk ∈ chunks, Whole chunk) : terminated (delivered [] chunks) = chunks.flatten := by
  induction chunks with
  | nil => rfl
  | cons chunk chunks ih =>
    have here := whole chunk (by simp)
    have clean := (readBuffer_whole here.some).mpr here
    have parts := (walk_parts chunk.length true (([] ++ chunk).take chunk.length)).2
    change terminated (readBuffer [] chunk).1 ++ (readBuffer [] chunk).2 = _ at parts
    simp only [clean,append_nil,nil_append,take_length] at parts
    simp only [delivered,terminated_append,clean,parts,flatten_cons]
    rw [ih fun c member => whole c (mem_cons_of_mem _ member)]

theorem delivered_plain (left : Bytes) (chunks : List Bytes) : ∀ string ∈ delivered left chunks, 0 ∉ string := by
  induction chunks generalizing left with
  | nil => simp [delivered]
  | cons chunk chunks ih =>
    intro string member
    rcases mem_append.mp member with here | later
    · exact (walk_parts _ _ _).1 string here
    · exact ih _ string later

theorem readChunks_found : (chunks.foldl (readChunk linker env) state).found =
      (delivered state.left chunks).foldl (saveString linker env) state.found := by
  induction chunks generalizing state with
  | nil => rfl
  | cons chunk chunks ih => simp [delivered,ih,readChunk]

theorem ldVal_delivered {linker : Bytes} :
    ldVal linker env chunks = ((delivered [] chunks).eraseP linker.isPrefixOf).filter (!isBlacklisted env ·) := by
  simp [ldVal,readChunks_found,saveString_saved]

theorem fits_some (fits : Fits left chunks) : ∀ chunk ∈ chunks, chunk ≠ [] := by
  induction chunks generalizing left with
  | nil => simp
  | cons chunk chunks ih =>
    obtain ⟨some,_,rest⟩ := fits
    intro chunk' member
    rcases mem_cons.mp member with rfl | member
    · exact some
    · exact ih rest chunk' member

variable (delivery : Delivery)

theorem texts_plain : ∀ text ∈ delivery.texts, 0 ∉ text := by
  intro text member
  obtain ⟨path,_,rfl⟩ := mem_map.mp member
  exact path.plain

theorem delivered_texts (whole : ∀ chunk ∈ delivery.chunks, Whole chunk) : delivered [] delivery.chunks = delivery.texts :=
  terminated_inj (delivered_plain [] delivery.chunks) (texts_plain delivery)
    ((delivered_whole whole).trans delivery.all)

theorem terminated_sublist {some all : List Bytes} (part : some.Sublist all) : (terminated some).length ≤ (terminated all).length := by
  induction part with
  | slnil => simp
  | cons _ _ ih => simp; omega
  | cons_cons _ _ ih => simpa using ih

theorem whole_of_result (same : ldVal linker env delivery.chunks = delivery.texts) : ∀ chunk ∈ delivery.chunks, Whole chunk := by
  apply whole_of_length (fits_some delivery.fits)
  rw [delivery.all]
  change (terminated delivery.texts).length ≤ _
  rw [← same,ldVal_delivered]
  exact terminated_sublist (filter_sublist.trans eraseP_sublist)

theorem wanted_untouched (untouched : ∀ path ∈ paths, linker.isPrefixOf path = false ∧ isBlacklisted env path = false) :
    Precise linker env paths ∧ wanted linker env paths = paths := by
  have precise : Precise linker env paths := by
    constructor
    · intro path member listed
      simp [(untouched path (mem_of_mem_erase member)).2] at listed
    · intro path first
      have := (untouched path (mem_of_find?_eq_some first)).1
      rw [List.find?_some first] at this
      exact absurd this (by simp)
  refine ⟨precise,?_⟩
  rw [← filtered_iff.mpr precise,
    eraseP_of_forall_not (fun path member => by simp [(untouched path member).1])]
  exact filter_eq_self.mpr fun path member => by simp [(untouched path member).2]

theorem libraries_found_exact (linker : Bytes) (env : Option Bytes) : ((∀ chunk ∈ delivery.chunks, Whole chunk) →
      (ldVal linker env delivery.chunks = wanted linker env delivery.texts ↔ Precise linker env delivery.texts)) ∧
    ((∀ path ∈ delivery.texts, linker.isPrefixOf path = false ∧ isBlacklisted env path = false) →
      (ldVal linker env delivery.chunks = wanted linker env delivery.texts ↔ ∀ chunk ∈ delivery.chunks, Whole chunk)) := by
  constructor
  · intro whole
    rw [ldVal_delivered,delivered_texts delivery whole]
    exact filtered_iff
  · intro untouched
    obtain ⟨precise,all⟩ := wanted_untouched untouched
    constructor
    · intro same
      exact whole_of_result delivery (same.trans all)
    · intro whole
      rw [ldVal_delivered,delivered_texts delivery whole]
      exact filtered_iff.mpr precise

theorem libraries_lost : (∃ delivery : Delivery, delivery.texts = [ascii "/opt/a.so"] ∧
      delivery.chunks = [ascii "/opt/",ascii "a.so" ++ [0]] ∧ ldVal (ascii "/lib64/ld-linux-x86-64.so.2") none delivery.chunks = [] ∧
      wanted (ascii "/lib64/ld-linux-x86-64.so.2") none delivery.texts = [ascii "/opt/a.so"]) ∧
    ∃ delivery : Delivery, delivery.texts = [ascii "/libfoo/x"] ∧ delivery.chunks = [ascii "/libfoo/x" ++ [0]] ∧
      ldVal (ascii "/lib64/ld-linux-x86-64.so.2") none delivery.chunks = [] ∧
      wanted (ascii "/lib64/ld-linux-x86-64.so.2") none delivery.texts = [ascii "/libfoo/x"] := by
  constructor
  · refine ⟨⟨[⟨ascii "/opt/a.so",?_,?_⟩],[ascii "/opt/",ascii "a.so" ++ [0]],?_,?_⟩,rfl,rfl,?_,?_⟩ <;> decide
  · refine ⟨⟨[⟨ascii "/libfoo/x",?_,?_⟩],[ascii "/libfoo/x" ++ [0]],?_,?_⟩,rfl,rfl,?_,?_⟩ <;> decide

end Delivering

end CommonTools.Transfer.Discovery
