import Mathlib.Algebra.Ring.Nat

namespace CommonTools.Backend
open List hiding elem

def defaultStack : Nat := 128

inductive Realloc where
  | refused
  | inPlace
  | moved (block : Nat)
  deriving DecidableEq

inductive Fault where
  | refused
  | stale
  deriving DecidableEq

-- `elems` is the address the stack works with and `block` the buffer the allocator
-- holds for it. `pushed` is what lies below idx, the top first.
structure Stack (α : Type) where
  elems : Nat
  block : Nat
  numElems : Nat
  pushed : List α
  deriving DecidableEq

namespace Stack
variable {α : Type} (grown : Nat → Realloc)

def new (block : Nat) : Stack α := ⟨block,block,defaultStack,[]⟩

-- The address realloc returns is compared with NULL and then dropped.
def resize (s : Stack α) : Realloc → Except Fault (Stack α)
  | .refused => .error .refused
  | .inPlace => .ok {s with numElems := 2 * s.numElems}
  | .moved block => .ok {s with block := block,numElems := 2 * s.numElems}

def grow (s : Stack α) : Except Fault (Stack α) :=
  if s.numElems ≤ s.pushed.length then s.resize (grown s.numElems) else .ok s

def push (s : Stack α) (elem : α) : Except Fault (Stack α) := do
  let s ← s.grow grown
  if s.elems = s.block then .ok {s with pushed := elem :: s.pushed} else .error .stale

def pop (s : Stack α) : Except Fault (Option α × Stack α) :=
  match s.pushed with
  | [] => .ok (none,s)
  | top :: rest => if s.elems = s.block then .ok (some top,{s with pushed := rest}) else .error .stale

def Roomy (s : Stack α) (more : Nat) : Prop := s.pushed.length + more ≤ s.numElems ∨ ∀ size, grown size = .inPlace

variable {grown}

theorem push_kept {s : Stack α} (owned : s.elems = s.block) (roomy : s.Roomy grown (more + 1)) :
    ∃ numElems, s.push grown elem = .ok ⟨s.elems,s.block,numElems,elem :: s.pushed⟩ ∧
      (⟨s.elems,s.block,numElems,elem :: s.pushed⟩ : Stack α).Roomy grown more := by
  by_cases full : s.numElems ≤ s.pushed.length
  · have fixed : ∀ size, grown size = .inPlace := roomy.resolve_left (by omega)
    have step : s.grow grown = .ok {s with numElems := 2 * s.numElems} := by
      rw [grow,if_pos full,fixed]
      rfl
    exact ⟨_,by rw [push,step]; exact if_pos owned,.inr fixed⟩
  · have step : s.grow grown = .ok s := if_neg full
    refine ⟨s.numElems,by rw [push,step]; exact if_pos owned,roomy.imp_left fun room => ?_⟩
    simp only [length_cons]
    omega

theorem pushes_kept {elems : List α} {s : Stack α} (owned : s.elems = s.block) (roomy : s.Roomy grown elems.length) :
    ∃ numElems, elems.foldlM (push grown) s = .ok ⟨s.elems,s.block,numElems,elems.reverse ++ s.pushed⟩ := by
  induction elems generalizing s with
  | nil => exact ⟨s.numElems,rfl⟩
  | cons elem elems ih =>
    obtain ⟨numElems,step,room⟩ := push_kept owned roomy
    obtain ⟨numElems',rest⟩ := ih (s := ⟨_,_,numElems,_⟩) owned room
    refine ⟨numElems',?_⟩
    rw [foldlM_cons,step,reverse_cons,append_assoc]
    exact rest

theorem pushes_stale {elems : List α} {s : Stack α} {block : Nat} (owned : s.elems = s.block) (fits : s.pushed.length ≤ s.numElems)
    (moves : grown s.numElems = .moved block) (away : s.elems ≠ block)
    (many : s.numElems < s.pushed.length + elems.length) : elems.foldlM (push grown) s = .error .stale := by
  induction elems generalizing s with
  | nil => simp only [length_nil] at many; omega
  | cons elem elems ih =>
    rw [foldlM_cons]
    by_cases full : s.numElems ≤ s.pushed.length
    · have step : s.grow grown = .ok {s with block := block,numElems := 2 * s.numElems} := by
        rw [grow,if_pos full,moves]
        rfl
      have stale : s.push grown elem = .error .stale := by
        rw [push,step]
        exact if_neg away
      rw [stale]
      rfl
    · have step : s.grow grown = .ok s := if_neg full
      have kept : s.push grown elem = .ok {s with pushed := elem :: s.pushed} := by
        rw [push,step]
        exact if_pos owned
      rw [kept]
      simp only [length_cons] at many
      exact ih (s := {s with pushed := elem :: s.pushed}) owned (by simp only [length_cons]; omega) moves away
        (by simp only [length_cons]; omega)

inductive Call (α : Type) where
  | push (elem : Option α) (answer : Realloc)
  | pop

-- The return code of a push, or the element that a pop gives, none for NULL.
inductive Returned (α : Type) where
  | pushed (rc : Nat)
  | popped (elem : Option α)
  deriving DecidableEq

-- A NULL is not pushed. 2 * num_elems is an unsigned int: from 2^31 on the buffer is
-- resized to nothing, which gives it back.
def perform (s : Stack α) : Call α → Except Fault (Returned α × Stack α)
  | .push none _ => .ok (.pushed 0,s)
  | .push (some elem) answer =>
    if s.numElems ≤ s.pushed.length ∧ 2 ^ 32 ≤ 2 * s.numElems then .error .stale
    else match s.push (fun _ => answer) elem with
      | .ok s => .ok (.pushed 0,s)
      | .error .refused => .ok (.pushed 1,s)
      | .error .stale => .error .stale
  | .pop => do
    let (elem,s) ← s.pop
    return (.popped elem,s)

def performs (s : Stack α) : List (Call α) → Except Fault (List (Returned α) × Stack α)
  | [] => .ok ([],s)
  | call :: calls => do
    let (returned,s) ← s.perform call
    let (rest,s) ← s.performs calls
    return (returned :: rest,s)

-- What the calls on a stack return; a push is refused only for want of memory.
def AsStack : List α → List (Call α) → List (Returned α) → Prop
  | _,[],[] => True
  | stack,.push none _ :: calls,.pushed rc :: rest => rc = 0 ∧ AsStack stack calls rest
  | stack,.push (some elem) answer :: calls,.pushed rc :: rest =>
    rc = 0 ∧ AsStack (elem :: stack) calls rest ∨ rc = 1 ∧ answer = .refused ∧ AsStack stack calls rest
  | stack,.pop :: calls,.popped elem :: rest => elem = stack.head? ∧ AsStack stack.tail calls rest
  | _,_,_ => False

structure Sound (s : Stack α) (calls : List (Call α)) : Prop where
  runs : ∃ returned s', s.performs calls = .ok (returned,s') ∧ AsStack s.pushed calls returned ∧ s'.elems = s'.block

-- With so many elements and so much room: realloc leaves the buffer where it is whenever
-- the stack is full, and there are never 2^31 elements to make room for.
def Stays (block : Nat) : (depth room : Nat) → List (Call α) → Prop
  | _,_,[] => True
  | depth,room,.push none _ :: calls => Stays block depth room calls
  | depth,room,.push (some _) answer :: calls =>
    if depth < room then Stays block (depth + 1) room calls
    else 2 * room < 2 ^ 32 ∧ (answer = .refused ∧ Stays block depth room calls ∨
      (answer = .inPlace ∨ answer = .moved block) ∧ Stays block (depth + 1) (2 * room) calls)
  | depth,room,.pop :: calls => Stays block (depth - 1) room calls

theorem sound_step {s s' : Stack α} (step : s.perform call = .ok (returned,s'))
    (told : ∀ rest, AsStack s.pushed (call :: calls) (returned :: rest) ↔ AsStack s'.pushed calls rest) :
    s.Sound (call :: calls) ↔ s'.Sound calls := by
  have split : s.performs (call :: calls) = (s'.performs calls).map fun rest => (returned :: rest.1,rest.2) := by
    rw [performs,step]
    change (do let (rest,s) ← s'.performs calls; return (returned :: rest,s)) = _
    cases s'.performs calls <;> rfl
  constructor
  · rintro ⟨all,final,ran,stack,owned⟩
    rw [split] at ran
    cases later : s'.performs calls with
    | error fault => rw [later] at ran; cases ran
    | ok rest =>
      rw [later] at ran
      cases ran
      exact ⟨rest.1,rest.2,later,(told _).mp stack,owned⟩
  · rintro ⟨rest,final,ran,stack,owned⟩
    exact ⟨returned :: rest,final,by rw [split,ran]; rfl,(told _).mpr stack,owned⟩

theorem sound_stale {s : Stack α} (stale : s.perform call = .error .stale) : ¬ s.Sound (call :: calls) := by
  rintro ⟨returned,final,ran,_⟩
  rw [performs,stale] at ran
  cases ran

theorem perform_push {s : Stack α} (owned : s.elems = s.block) (room : s.pushed.length < s.numElems) :
    s.perform (.push (some elem) answer) = .ok (.pushed 0,{s with pushed := elem :: s.pushed}) := by
  have step : s.push (fun _ => answer) elem = .ok {s with pushed := elem :: s.pushed} := by
    rw [push,grow,if_neg (by omega)]
    exact if_pos owned
  rw [perform,if_neg (by omega),step]

theorem perform_full {s : Stack α} (full : s.numElems ≤ s.pushed.length) (small : 2 * s.numElems < 2 ^ 32)
    (grown : s.resize answer = .ok s') : s.perform (.push (some elem) answer) =
      if s'.elems = s'.block then .ok (.pushed 0,{s' with pushed := elem :: s'.pushed}) else .error .stale := by
  have step : s.push (fun _ => answer) elem =
      if s'.elems = s'.block then .ok {s' with pushed := elem :: s'.pushed} else .error .stale := by
    rw [push,grow,if_pos full,grown]
    rfl
  rw [perform,if_neg (by omega),step]
  by_cases owned : s'.elems = s'.block
  · rw [if_pos owned,if_pos owned]
  · rw [if_neg owned,if_neg owned]

theorem perform_refused {s : Stack α} (full : s.numElems ≤ s.pushed.length) (small : 2 * s.numElems < 2 ^ 32) :
    s.perform (.push (some elem) .refused) = .ok (.pushed 1,s) := by
  have step : s.push (fun _ => .refused) elem = .error .refused := by
    rw [push,grow,if_pos full]
    rfl
  rw [perform,if_neg (by omega),step]

theorem sound_iff {s : Stack α} (owned : s.elems = s.block) (calls : List (Call α)) :
    s.Sound calls ↔ Stays s.block s.pushed.length s.numElems calls := by
  induction calls generalizing s with
  | nil => exact iff_of_true ⟨[],s,rfl,trivial,owned⟩ trivial
  | cons call calls ih =>
    cases call with
    | pop =>
      cases top : s.pushed with
      | nil =>
        have step : s.perform .pop = .ok (.popped none,s) := by rw [perform,pop,top]; rfl
        rw [sound_step step fun rest => by simp [AsStack,top],ih owned,top]
        rfl
      | cons elem pushed =>
        have step : s.perform .pop = .ok (.popped (some elem),{s with pushed := pushed}) := by
          rw [perform,pop,top]
          dsimp only
          rw [if_pos owned]
          rfl
        rw [sound_step step fun rest => by simp [AsStack,top],ih (s := {s with pushed := pushed}) owned]
        rfl
    | push elem answer =>
      cases elem with
      | none => exact (sound_step rfl fun rest => by simp [AsStack]).trans (ih owned)
      | some elem =>
        rw [Stays]
        by_cases room : s.pushed.length < s.numElems
        · rw [if_pos room,sound_step (perform_push owned room) fun rest => by simp [AsStack]]
          exact ih owned
        have full := Nat.le_of_not_lt room
        rw [if_neg room]
        by_cases small : 2 * s.numElems < 2 ^ 32
        · rw [and_iff_right small]
          cases answer with
          | refused =>
            rw [sound_step (perform_refused full small) fun rest => by simp [AsStack],ih owned]
            simp
          | inPlace =>
            have step : s.perform (.push (some elem) .inPlace) = _ := perform_full full small rfl
            rw [if_pos owned] at step
            refine (sound_step step fun rest => by simp [AsStack]).trans ((ih ?_).trans ?_)
            · exact owned
            · simp
          | moved block =>
            have step : s.perform (.push (some elem) (.moved block)) = _ := perform_full full small rfl
            by_cases same : s.elems = block
            · rw [if_pos same] at step
              refine (sound_step step fun rest => by simp [AsStack]).trans ((ih same).trans ?_)
              simp [← same,owned]
            · rw [if_neg same] at step
              exact iff_of_false (sound_stale step) (by simp [← owned,Ne.symm same])
        · have step : s.perform (.push (some elem) answer) = .error .stale := if_pos ⟨full,Nat.le_of_not_lt small⟩
          exact iff_of_false (sound_stale step) fun stays => small stays.1

theorem stack_exact (block : Nat) (calls : List (Call α)) : (new block : Stack α).Sound calls ↔ Stays block 0 defaultStack calls :=
  sound_iff rfl calls

def fill (answer : Realloc) : List (Call Nat) := List.replicate 129 (.push (some 7) answer)

theorem moved_buffer_written : (new 1 : Stack Nat).performs (fill (.moved 2)) = .error .stale ∧
    ¬ (new 1 : Stack Nat).Sound (fill (.moved 2)) := by
  have stale : (new 1 : Stack Nat).performs (fill (.moved 2)) = .error .stale := by decide +kernel
  refine ⟨stale,?_⟩
  rintro ⟨returned,final,ran,_⟩
  rw [stale] at ran
  cases ran

end Stack

end CommonTools.Backend
