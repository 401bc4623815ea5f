import CommonTools.Slurm.Texts

namespace CommonTools.Slurm
open Numerals FeDaemon List

-- ManagedArgv::add copies its argument as a C string.
def addArg (args : List Bytes) (str : Bytes) : List Bytes := args ++ [str.takeWhile (· ≠ 0)]

structure Quoting where
  args : List Bytes
  inQuote : Bool
  pending : Bytes

def quotedLoop : Bytes → Quoting → Quoting
  | [],state => state
  | c :: rest,state =>
    if isSpace c && !state.inQuote && state.pending ≠ [] then
      quotedLoop rest {state with args := addArg state.args state.pending, pending := []}
    else
      match c,rest with
      | 92,next :: rest => quotedLoop rest {state with pending := state.pending ++ if next = 34 then [34] else [92,next]}
      | c,rest =>
        if c = 34 then quotedLoop rest {state with inQuote := !state.inQuote}
        else if state.inQuote || !isSpace c then quotedLoop rest {state with pending := state.pending ++ [c]}
        else quotedLoop rest state

def addQuotedArgs (args : List Bytes) (quotedArgs : Bytes) : Except Bytes (List Bytes) :=
  let state := quotedLoop quotedArgs ⟨args,false,[]⟩
  if state.inQuote then .error (ascii "Unclosed quote in " ++ quotedArgs)
  else .ok (if state.pending ≠ [] then addArg state.args state.pending else state.args)

structure Argument where
  text : CStr
  plain : 92 ∉ text.val

structure Blanks where
  text : Bytes
  some' : text ≠ []
  spaces : ∀ b ∈ text, isSpace b = true

def escaped (text : Bytes) : Bytes := text.flatMap fun b => if b = 34 then [92,34] else [b]

def Argument.quoted (argument : Argument) : Bytes := 34 :: (escaped argument.text.val ++ [34])

def writtenArgs : List (Argument × Blanks) → Bytes
  | [] => []
  | [piece] => piece.1.quoted
  | piece :: next :: pieces => piece.1.quoted ++ (piece.2.text ++ writtenArgs (next :: pieces))

section Passing
variable {args : List Bytes} {pending : Bytes}

theorem loop_other (other : c ≠ 92) : quotedLoop (c :: rest) state = if isSpace c && !state.inQuote && state.pending ≠ [] then
      quotedLoop rest {state with args := addArg state.args state.pending, pending := []}
    else if c = 34 then quotedLoop rest {state with inQuote := !state.inQuote}
    else if state.inQuote || !isSpace c then quotedLoop rest {state with pending := state.pending ++ [c]} else quotedLoop rest state := by
  rw [quotedLoop.eq_def]
  split
  · rename_i nothing
    cases nothing
  · rename_i head
    cases head
    split
    · rfl
    · split
      · exact absurd rfl other
      · rfl

theorem loop_escaped (plain : 92 ∉ text) :
    quotedLoop (escaped text ++ 34 :: rest) ⟨args,true,pending⟩ = quotedLoop rest ⟨args,false,pending ++ text⟩ := by
  induction text generalizing pending with
  | nil => simp [escaped,loop_other]
  | cons c text ih =>
    have other : c ≠ 92 := fun same => plain (by simp [same])
    have free : 92 ∉ text := fun inside => plain (mem_cons_of_mem _ inside)
    by_cases quote : c = 34
    · subst quote
      have parts : escaped (34 :: text) ++ 34 :: rest = 92 :: 34 :: (escaped text ++ 34 :: rest) := by simp [escaped]
      rw [parts,quotedLoop]
      simp [ih free]
    · have parts : escaped (c :: text) ++ 34 :: rest = c :: (escaped text ++ 34 :: rest) := by simp [escaped,quote]
      rw [parts,loop_other other]
      simp [ih free,quote]

theorem loop_quoted (argument : Argument) (rest : Bytes) :
    quotedLoop (argument.quoted ++ rest) ⟨args,false,[]⟩ = quotedLoop rest ⟨args,false,argument.text.val⟩ := by
  have parts : argument.quoted ++ rest = 34 :: (escaped argument.text.val ++ 34 :: rest) := by simp [Argument.quoted]
  rw [parts,loop_other (by decide)]
  simp [loop_escaped argument.plain]

def settled (args : List Bytes) (pending : Bytes) : List Bytes := if pending = [] then args else addArg args pending

theorem space_other (space : isSpace c = true) : c ≠ 92 ∧ c ≠ 34 := by
  refine ⟨?_,?_⟩
  all_goals
    rintro rfl
    exact absurd space (by decide)

theorem loop_spaces (spaces : ∀ b ∈ text, isSpace b = true) :
    quotedLoop (text ++ rest) ⟨args,false,[]⟩ = quotedLoop rest ⟨args,false,[]⟩ := by
  induction text with
  | nil => rfl
  | cons c text ih =>
    obtain ⟨space,others⟩ := forall_mem_cons.mp spaces
    obtain ⟨plain,unquoted⟩ := space_other space
    rw [cons_append,loop_other plain]
    simp [space,unquoted,ih others]

theorem loop_blanks {blanks : Blanks} :
    quotedLoop (blanks.text ++ rest) ⟨args,false,pending⟩ = quotedLoop rest ⟨settled args pending,false,[]⟩ := by
  obtain ⟨c,text,parts⟩ := exists_cons_of_ne_nil blanks.some'
  have spaces := blanks.spaces
  rw [parts] at spaces ⊢
  obtain ⟨space,others⟩ := forall_mem_cons.mp spaces
  by_cases empty : pending = []
  · subst empty
    exact loop_spaces spaces
  · rw [cons_append,loop_other (space_other space).1]
    simp [space,empty,settled,loop_spaces others]

def settledAll (args : List Bytes) (pieces : List (Argument × Blanks)) : List Bytes :=
  pieces.foldl (fun args piece => settled args piece.1.text.val) args

theorem loop_written (pieces : List (Argument × Blanks)) (args : List Bytes) :
    ∃ before pending, quotedLoop (writtenArgs pieces) ⟨args,false,[]⟩ = ⟨before,false,pending⟩ ∧
      settled before pending = settledAll args pieces := by
  induction pieces generalizing args with
  | nil => exact ⟨args,[],rfl,rfl⟩
  | cons piece pieces ih =>
    cases pieces with
    | nil =>
      have read := @loop_quoted args piece.1 []
      rw [append_nil] at read
      exact ⟨args,piece.1.text.val,read,rfl⟩
    | cons next pieces =>
      rw [writtenArgs,loop_quoted,loop_blanks]
      exact ih (settled args piece.1.text.val)

theorem addQuotedArgs_written : addQuotedArgs args (writtenArgs pieces) = .ok (settledAll args pieces) := by
  obtain ⟨before,pending,read,same⟩ := loop_written pieces args
  rw [addQuotedArgs,read,← same]
  by_cases empty : pending = [] <;> simp [settled,empty]

theorem settledAll_args : settledAll args pieces = args ++ (pieces.map fun piece => piece.1.text.val).filter (· ≠ []) := by
  induction pieces generalizing args with
  | nil => simp [settledAll]
  | cons piece pieces ih =>
    have next : settledAll args (piece :: pieces) = settledAll (settled args piece.1.text.val) pieces := rfl
    have whole := Texts.takeWhile_free piece.1.text.property
    rw [next,ih]
    by_cases empty : piece.1.text.val = []
    · simp [settled,empty]
    · rw [settled,addArg,whole]
      simp [empty]

end Passing

-- The arguments come through exactly if none of them is empty.
theorem quoted_args_exact (args : List Bytes) (pieces : List (Argument × Blanks)) :
    addQuotedArgs args (writtenArgs pieces) = .ok (args ++ pieces.map fun piece => piece.1.text.val) ↔
      ∀ piece ∈ pieces, piece.1.text.val ≠ [] := by
  rw [addQuotedArgs_written,settledAll_args,Except.ok.injEq,append_cancel_left_eq,filter_eq_self,forall_mem_map]
  simp

def emptyArgument : Argument := ⟨⟨[],by simp⟩,by simp⟩

def oneBlank : Blanks := ⟨[32],by simp,by decide +kernel⟩

theorem empty_argument_lost :
    writtenArgs [(emptyArgument,oneBlank)] = [34,34] ∧ addQuotedArgs [] (writtenArgs [(emptyArgument,oneBlank)]) = .ok [] ∧
    ¬ ∀ (args : List Bytes) (pieces : List (Argument × Blanks)),
      addQuotedArgs args (writtenArgs pieces) = .ok (args ++ pieces.map fun piece => piece.1.text.val) := by
  have lost : addQuotedArgs [] (writtenArgs [(emptyArgument,oneBlank)]) = .ok [] := by decide
  refine ⟨by decide,lost,fun kept => ?_⟩
  have found := kept [] [(emptyArgument,oneBlank)]
  rw [lost] at found
  cases found

end CommonTools.Slurm
