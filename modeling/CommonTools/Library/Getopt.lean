import CommonTools.Library.Texts

namespace Getopt
open Texts

inductive Takes where
  | nothing
  | value
  deriving DecidableEq

structure Long (α : Type) where
  name : String
  takes : Takes
  val : α
  deriving DecidableEq

inductive Answer (α : Type) where
  | option (val : α) (arg : Option String)
  | unknown
  deriving DecidableEq

-- What one element of the argument vector is: options, of which the last may take
-- the next element as its value, the end of all options, or an operand.
inductive Element (α : Type) where
  | options (answers : List (Answer α)) (awaits : Option α)
  | finished
  | operand
  deriving DecidableEq

structure Parsed (α : Type) where
  answers : List (Answer α)
  rest : List String
  deriving DecidableEq

section Scanning
variable {α : Type} (long : List (Long α)) (short : Char → Option (Takes × α))

-- An exact match, or else the only option the name abbreviates.
def lookup (name : List Char) : Option (Long α) :=
  match long.find? (fun entry => decide (entry.name.toList = name)) with
  | some entry => some entry
  | none =>
    match long.filter (fun entry => name.isPrefixOf entry.name.toList) with
    | [entry] => some entry
    | _ => none

def longElement (body : List Char) : Element α :=
  match lookup long (body.takeWhile (· ≠ '=')),body.dropWhile (· ≠ '=') with
  | none,_ => .options [.unknown] none
  | some ⟨_,.nothing,val⟩,[] => .options [.option val none] none
  | some ⟨_,.nothing,_⟩,_ :: _ => .options [.unknown] none
  | some ⟨_,.value,val⟩,[] => .options [] (some val)
  | some ⟨_,.value,val⟩,_ :: value => .options [.option val (some (String.ofList value))] none

-- Short options may share an element; one that takes a value takes what is left.
def cluster : List Char → List (Answer α) × Option α
  | [] => ([],none)
  | c :: rest =>
    match short c with
    | none => (.unknown :: (cluster rest).1,(cluster rest).2)
    | some (.nothing,val) => (.option val none :: (cluster rest).1,(cluster rest).2)
    | some (.value,val) => if rest = [] then ([],some val) else ([.option val (some (String.ofList rest))],none)

def element (text : String) : Element α :=
  match text.toList with
  | ['-','-'] => .finished
  | '-' :: '-' :: body => longElement long body
  | '-' :: c :: rest => .options (cluster short (c :: rest)).1 (cluster short (c :: rest)).2
  | _ => .operand

-- All calls of getopt_long on one vector. Operands are moved behind the options,
-- so what is left at the end is every operand and then what follows the "--".
def scan : Option α → List String → Parsed α
  | none,[] => ⟨[],[]⟩
  | some _,[] => ⟨[.unknown],[]⟩
  | some val,arg :: rest => ⟨.option val (some arg) :: (scan none rest).answers,(scan none rest).rest⟩
  | none,text :: rest =>
    match element long short text with
    | .options answers awaits => ⟨answers ++ (scan awaits rest).answers,(scan awaits rest).rest⟩
    | .finished => ⟨[],rest⟩
    | .operand => ⟨(scan none rest).answers,text :: (scan none rest).rest⟩

variable {long short}

theorem scan_options (read : element long short text = .options answers none) : scan long short none (text :: rest) =
      ⟨answers ++ (scan long short none rest).answers,(scan long short none rest).rest⟩ := by
  rw [scan,read]

theorem scan_finished : scan long short none ("--" :: rest) = ⟨[],rest⟩ := by
  have read : element long short "--" = .finished := rfl
  rw [scan,read]

theorem element_value (name : String) (found : lookup long name.toList = some ⟨name,.value,val⟩)
    (free : Without '=' name) (value : String) :
    element long short ("--" ++ name ++ "=" ++ value) = .options [.option val (some value)] none := by
  have chars : ("--" ++ name ++ "=" ++ value).toList = '-' :: '-' :: (name.toList ++ '=' :: value.toList) := by simp
  have read : longElement long (name.toList ++ '=' :: value.toList) = .options [.option val (some value)] none := by
    unfold longElement
    rw [takeWhile_sep free,dropWhile_sep free,found]
    simp
  unfold element
  rw [chars,← read]
  cases whole : name.toList ++ '=' :: value.toList with
  | nil => simp at whole
  | cons c rest => rfl

theorem element_flag (name : String) (found : lookup long name.toList = some ⟨name,.nothing,val⟩)
    (free : Without '=' name) (named : name ≠ "") : element long short ("--" ++ name) = .options [.option val none] none := by
  have chars : ("--" ++ name).toList = '-' :: '-' :: name.toList := by simp
  have read : longElement long name.toList = .options [.option val none] none := by
    unfold longElement
    rw [takeWhile_free free,dropWhile_free free,found]
  unfold element
  rw [chars,← read]
  cases whole : name.toList with
  | nil => exact absurd (String.toList_inj.mp whole) named
  | cons c rest => rfl

end Scanning

end Getopt
