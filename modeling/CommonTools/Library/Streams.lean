import Mathlib.Data.List.Basic

namespace Streams
open List

-- A stream as it comes in: a single read never gets more than the rest of a chunk.
abbrev Chunks (β : Type) := List (List β)

-- One read for at most `cap` symbols. Nothing is returned only at the end.
def read (cap : Nat) : Chunks β → List β × Chunks β
  | [] => ([],[])
  | [] :: rest => read cap rest
  | (x :: chunk) :: rest => ((x :: chunk).take cap,(x :: chunk).drop cap :: rest)

theorem read_flatten (cap : Nat) (s : Chunks β) : (read cap s).1 ++ (read cap s).2.flatten = s.flatten := by
  induction s with
  | nil => rfl
  | cons chunk rest ih =>
    cases chunk with
    | nil => exact ih
    | cons x chunk =>
      change (x :: chunk).take cap ++ ((x :: chunk).drop cap ++ rest.flatten) = _
      rw [← append_assoc,take_append_drop]
      rfl

theorem read_bound (cap : Nat) (s : Chunks β) : (read cap s).1.length ≤ cap := by
  induction s with
  | nil => exact Nat.zero_le _
  | cons chunk rest ih =>
    cases chunk with
    | nil => exact ih
    | cons x chunk => exact length_take_le cap _

theorem read_some (positive : 0 < cap) (s : Chunks β) (more : s.flatten ≠ []) : 0 < (read cap s).1.length := by
  induction s with
  | nil => exact absurd rfl more
  | cons chunk rest ih =>
    cases chunk with
    | nil => exact ih more
    | cons x chunk =>
      change 0 < ((x :: chunk).take cap).length
      rw [length_take,length_cons]
      omega

theorem read_end (ended : s.flatten = []) : (read cap s).1 = [] := by
  have whole := read_flatten cap s
  rw [ended] at whole
  exact (append_eq_nil_iff.mp whole).1

abbrev Reader (ε β α : Type) := EStateM ε (Chunks β) α

def outcome : EStateM.Result ε σ α → Except ε α × σ
  | .ok value s => (.ok value,s)
  | .error e s => (.error e,s)

theorem outcome_ok (ended : outcome ran = (.ok value,s)) : ran = .ok value s := by
  cases ran with
  | ok value' s' => cases ended; rfl
  | error e s' => cases ended

section Reading
variable {ε β : Type}

def readSome (ended : ε) (cap : Nat) : Reader ε β (List β) := fun s =>
  match (read cap s).1 with
  | [] => .error ended (read cap s).2
  | got => .ok got (read cap s).2

-- Reads are repeated until `wanted` symbols are there; each brings at least one.
def readFor (ended : ε) : Nat → Nat → Reader ε β (List β)
  | fuel + 1,wanted + 1 => do
    let got ← readSome ended (wanted + 1)
    let more ← readFor ended fuel (wanted + 1 - got.length)
    return got ++ more
  | _,_ => pure []

def readLoop (ended : ε) (wanted : Nat) : Reader ε β (List β) := readFor ended wanted wanted

-- The program takes exactly `front` off the stream, however it is cut up.
def Consumes (act : Reader ε β α) (front : List β) (result : Except ε α) : Prop :=
  ∀ s rest, s.flatten = front ++ rest → ∃ s', outcome (act s) = (result,s') ∧ s'.flatten = rest

theorem consumes_pure : Consumes (pure value : Reader ε β α) [] (.ok value) := fun s _ whole => ⟨s,rfl,whole⟩

theorem consumes_throw : Consumes (throw e : Reader ε β α) [] (.error e) := fun s _ whole => ⟨s,rfl,whole⟩

theorem consumes_bind (first : Consumes act front (.ok value))
    (rest : Consumes (follow value) back result) : Consumes (act >>= follow) (front ++ back) result := by
  intro s tail whole
  rw [append_assoc] at whole
  obtain ⟨middle,one,left⟩ := first s _ whole
  obtain ⟨final,two,left'⟩ := rest middle tail left
  refine ⟨final,?_,left'⟩
  change outcome (EStateM.bind act follow s) = _
  rw [EStateM.bind,outcome_ok one]
  exact two

theorem consumes_stop (first : Consumes act front (.error e)) : Consumes (act >>= follow) front (.error e) := by
  intro s tail whole
  obtain ⟨final,one,left⟩ := first s tail whole
  refine ⟨final,?_,left⟩
  change outcome (EStateM.bind act follow s) = _
  unfold EStateM.bind
  cases ended : act s with
  | ok value' s' => rw [ended] at one; cases one
  | error e' s' => rw [ended] at one; cases one; rfl

theorem readSome_front {front : List β} (positive : 0 < front.length) (whole : s.flatten = front ++ rest) :
    ∃ got later s', readSome ended front.length s = .ok got s' ∧ front = got ++ later ∧ 0 < got.length ∧ s'.flatten = later ++ rest := by
  have split := read_flatten front.length s
  have bound := read_bound front.length s
  have some := read_some positive s (by
    rw [whole]
    exact append_ne_nil_of_left_ne_nil (length_pos_iff.mp positive) _)
  have one : (read front.length s).1 <+: s.flatten := ⟨_,split⟩
  have two : front <+: s.flatten := ⟨rest,whole.symm⟩
  have begins := prefix_of_prefix_length_le one two bound
  obtain ⟨later,parts⟩ := begins
  refine ⟨(read front.length s).1,later,(read front.length s).2,?_,parts.symm,some,?_⟩
  · unfold readSome
    split
    · rename_i none
      rw [none] at some
      cases some
    · rfl
  · rw [whole] at split
    nth_rewrite 3 [← parts] at split
    rw [append_assoc] at split
    exact append_cancel_left split

theorem consumes_readFor (ended : ε) (front : List β) (enough : front.length ≤ fuel) :
    Consumes (readFor ended fuel front.length) front (.ok front) := by
  induction fuel generalizing front with
  | zero =>
    have empty : front = [] := length_eq_zero_iff.mp (by omega)
    subst empty
    exact consumes_pure
  | succ fuel ih =>
    cases front with
    | nil => exact consumes_pure
    | cons x front =>
      intro s rest whole
      have positive : 0 < (x :: front).length := Nat.succ_pos _
      obtain ⟨got,later,middle,first,parts,some,left⟩ := readSome_front positive whole
      have sizes := congrArg List.length parts
      rw [length_append,length_cons] at sizes
      rw [length_cons] at enough
      obtain ⟨final,second,left'⟩ := ih later (by omega) middle rest left
      refine ⟨final,?_,left'⟩
      have size : front.length + 1 - got.length = later.length := by omega
      change outcome (EStateM.bind (readSome ended (front.length + 1)) _ s) = _
      unfold EStateM.bind
      rw [length_cons] at first
      rw [first]
      change outcome (EStateM.bind (readFor ended fuel (front.length + 1 - got.length)) _ middle) = _
      rw [size,EStateM.bind,outcome_ok second,parts]
      rfl

theorem consumes_readLoop (size : front.length = wanted) : Consumes (readLoop ended wanted) front (.ok front) :=
  size ▸ consumes_readFor ended front (Nat.le_refl _)

theorem consumes_skip (first : Consumes act [] (.ok value))
    (rest : Consumes (follow value) back result) : Consumes (act >>= follow) back result := consumes_bind first rest

theorem consumes_last (first : Consumes act front (.ok value))
    (rest : Consumes (follow value) [] result) : Consumes (act >>= follow) front result := by
  have both := consumes_bind first rest
  rwa [append_nil] at both

theorem consumes_map {act : Reader ε β α} (first : Consumes act front (.ok value)) (f : α → γ) :
    Consumes (act >>= fun value => pure (f value)) front (.ok (f value)) :=
  consumes_last first consumes_pure

theorem consumes_try {handler : ε → Reader ε β α} (ran : Consumes act front (.ok value)) :
    Consumes (tryCatch act handler) front (.ok value) := by
  intro s rest whole
  obtain ⟨final,one,left⟩ := ran s rest whole
  refine ⟨final,?_,left⟩
  change outcome (EStateM.tryCatch act handler s) = _
  rw [EStateM.tryCatch,outcome_ok one]
  rfl

theorem consumes_result (took : Consumes act front result) (whole : s.flatten = front) : (outcome (act s)).1 = result := by
  obtain ⟨s',ran,_⟩ := took s [] (by rw [whole,append_nil])
  rw [ran]

theorem outcome_map {act : Reader ε β α} {f : α → γ} {s : Chunks β} :
    (outcome ((act >>= fun value => pure (f value)) s)).1 = (outcome (act s)).1.map f := by
  change (outcome (EStateM.bind act _ s)).1 = _
  unfold EStateM.bind
  cases act s <;> rfl

theorem read_one (whole : s.flatten = x :: rest) : (read 1 s).1 = [x] ∧ (read 1 s).2.flatten = rest := by
  have split := read_flatten 1 s
  have bound := read_bound 1 s
  have some := read_some Nat.one_pos s (by rw [whole]; exact cons_ne_nil _ _)
  obtain ⟨y,single⟩ := length_eq_one_iff.mp (Nat.le_antisymm bound some)
  rw [single,whole] at split
  obtain ⟨same,left⟩ := List.cons.inj split
  exact ⟨by rw [single,same],left⟩

-- A loop may be given as many turns as there are symbols left, and one more.
def remaining : Reader ε β Nat := fun s => .ok (s.flatten.length + 1) s

theorem consumes_remaining {follow : Nat → Reader ε β α} (enough : ∀ fuel, front.length < fuel → Consumes (follow fuel) front result) :
    Consumes (remaining >>= follow) front result := by
  intro s rest whole
  have size : front.length < s.flatten.length + 1 := by
    rw [whole,length_append]
    omega
  exact enough _ size s rest whole

-- The program gets a value, or throws, when the stream begins with `front`; how
-- much of it is taken is left open.
def Yields (act : Reader ε β α) (front : List β) (value : α) : Prop :=
  ∀ s rest, s.flatten = front ++ rest → ∃ s', act s = .ok value s'

def Fails (act : Reader ε β α) (front : List β) : Prop :=
  ∀ s rest, s.flatten = front ++ rest → ∃ e s', act s = .error e s'

theorem yields_consumes (took : Consumes act front (.ok value)) : Yields act front value := by
  intro s rest whole
  obtain ⟨s',ran,_⟩ := took s rest whole
  exact ⟨s',outcome_ok ran⟩

theorem yields_longer (got : Yields act front value) : Yields act (front ++ back) value :=
  fun s rest whole => got s (back ++ rest) (by rw [whole,append_assoc])

theorem yields_bind (first : Consumes act front (.ok value))
    (rest : Yields (follow value) back result) : Yields (act >>= follow) (front ++ back) result := by
  intro s tail whole
  rw [append_assoc] at whole
  obtain ⟨middle,one,left⟩ := first s _ whole
  obtain ⟨final,two⟩ := rest middle tail left
  refine ⟨final,?_⟩
  change EStateM.bind act follow s = _
  rw [EStateM.bind,outcome_ok one]
  exact two

theorem yields_skip (first : Consumes act [] (.ok value))
    (rest : Yields (follow value) back result) : Yields (act >>= follow) back result := yields_bind first rest

theorem yields_last (first : Yields act front value) (rest : Yields (follow value) [] result) : Yields (act >>= follow) front result := by
  intro s tail whole
  obtain ⟨middle,one⟩ := first s tail whole
  obtain ⟨final,two⟩ := rest middle middle.flatten rfl
  refine ⟨final,?_⟩
  change EStateM.bind act follow s = _
  rw [EStateM.bind,one]
  exact two

theorem fails_throw : Fails (throw e : Reader ε β α) front := fun s _ _ => ⟨e,s,rfl⟩

theorem fails_longer (failed : Fails act front) {back : List β} : Fails act (front ++ back) :=
  fun s rest whole => failed s (back ++ rest) (by rw [whole,append_assoc])

theorem fails_bind (first : Consumes act front (.ok value)) (rest : Fails (follow value) back) : Fails (act >>= follow) (front ++ back) := by
  intro s tail whole
  rw [append_assoc] at whole
  obtain ⟨middle,one,left⟩ := first s _ whole
  obtain ⟨e,final,two⟩ := rest middle tail left
  refine ⟨e,final,?_⟩
  change EStateM.bind act follow s = _
  rw [EStateM.bind,outcome_ok one]
  exact two

theorem fails_skip (first : Consumes act [] (.ok value))
    (rest : Fails (follow value) back) : Fails (act >>= follow) back := fails_bind first rest

theorem fails_stop (first : Fails act front) : Fails (act >>= follow) front := by
  intro s tail whole
  obtain ⟨e,final,one⟩ := first s tail whole
  refine ⟨e,final,?_⟩
  change EStateM.bind act follow s = _
  rw [EStateM.bind,one]

-- The program throws on a stream that ends before all of `front` has come.
def Starves (act : Reader ε β α) (front : List β) : Prop :=
  ∀ s cut, cut < front.length → s.flatten = front.take cut → ∃ e s', act s = .error e s'

theorem starves_bind (first : Consumes act front (.ok value))
    (short : Starves act front) (rest : Starves (follow value) back) : Starves (act >>= follow) (front ++ back) := by
  intro s cut inside ended
  change ∃ e s', EStateM.bind act follow s = .error e s'
  rw [length_append] at inside
  by_cases early : cut < front.length
  · rw [take_append_of_le_length (Nat.le_of_lt early)] at ended
    obtain ⟨e,s',failed⟩ := short s cut early ended
    exact ⟨e,s',by rw [EStateM.bind,failed]⟩
  · rw [take_append,take_of_length_le (Nat.le_of_not_lt early)] at ended
    obtain ⟨middle,one,left⟩ := first s _ ended
    obtain ⟨e,s',failed⟩ := rest middle (cut - front.length) (by omega) left
    exact ⟨e,s',by rw [EStateM.bind,outcome_ok one]; exact failed⟩

theorem starves_then (short : Starves act front) : Starves (act >>= follow) front := by
  intro s cut inside ended
  obtain ⟨e,s',failed⟩ := short s cut inside ended
  refine ⟨e,s',?_⟩
  change EStateM.bind act follow s = _
  rw [EStateM.bind,failed]

theorem readFor_short (ended : ε) (wanted : Nat) (s : Chunks β) (enough : wanted ≤ fuel) (short : s.flatten.length < wanted) :
    ∃ s', readFor ended fuel wanted s = .error ended s' := by
  induction fuel generalizing wanted s with
  | zero => omega
  | succ fuel ih =>
    obtain ⟨wanted,rfl⟩ := Nat.exists_eq_add_one.mpr (Nat.zero_lt_of_lt short)
    have split := congrArg List.length (read_flatten (wanted + 1) s)
    rw [length_append] at split
    change ∃ s', EStateM.bind (readSome ended (wanted + 1)) _ s = .error ended s'
    unfold EStateM.bind readSome
    cases got : (read (wanted + 1) s).1 with
    | nil => exact ⟨_,rfl⟩
    | cons x chunk =>
      rw [got,length_cons] at split
      obtain ⟨s',failed⟩ := ih (wanted + 1 - (x :: chunk).length) (read (wanted + 1) s).2
        (by rw [length_cons]; omega) (by rw [length_cons]; omega)
      refine ⟨s',?_⟩
      change EStateM.bind (readFor ended fuel (wanted + 1 - (x :: chunk).length)) _ _ = _
      rw [EStateM.bind,failed]

theorem starves_readLoop (size : front.length = wanted) : Starves (readLoop ended wanted) front := by
  intro s cut inside cutOff
  have short : s.flatten.length < wanted := by
    rw [cutOff,length_take]
    omega
  obtain ⟨s',failed⟩ := readFor_short ended wanted s (Nat.le_refl wanted) short
  exact ⟨ended,s',failed⟩

end Reading

section Lenient
variable {β : Type}

-- Reads are repeated until `wanted` symbols are there or a read brings nothing.
def readUpTo : Nat → Nat → Chunks β → List β × Chunks β
  | fuel + 1,wanted + 1,s =>
    match (read (wanted + 1) s).1 with
    | [] => ([],(read (wanted + 1) s).2)
    | got =>
      let more := readUpTo fuel (wanted + 1 - got.length) (read (wanted + 1) s).2
      (got ++ more.1,more.2)
  | _,_,s => ([],s)

theorem read_parts (positive : 0 < cap) : s.flatten = (read cap s).1 ++ (read cap s).2.flatten ∧ (read cap s).1.length ≤ cap ∧
      ((read cap s).1 = [] → s.flatten = []) := by
  refine ⟨(read_flatten cap s).symm,read_bound cap s,fun none => ?_⟩
  by_contra more
  have some := read_some positive s more
  rw [none] at some
  exact absurd some (Nat.lt_irrefl 0)

theorem readUpTo_takes (wanted : Nat) (s : Chunks β) (enough : wanted ≤ fuel) :
    (readUpTo fuel wanted s).1 = s.flatten.take wanted ∧ (readUpTo fuel wanted s).2.flatten = s.flatten.drop wanted := by
  induction fuel generalizing wanted s with
  | zero =>
    obtain rfl : wanted = 0 := by omega
    exact ⟨rfl,rfl⟩
  | succ fuel ih =>
    cases wanted with
    | zero => exact ⟨rfl,rfl⟩
    | succ wanted =>
      obtain ⟨parts,bound,ended⟩ := read_parts (Nat.succ_pos wanted)
      unfold readUpTo
      split
      · rename_i none
        rw [none,nil_append] at parts
        have empty := ended none
        simp [empty,← parts]
      · rename_i some
        have positive := length_pos_iff.mpr some
        obtain ⟨taken,left⟩ := ih (wanted + 1 - (read (wanted + 1) s).1.length) (read (wanted + 1) s).2 (by omega)
        rw [parts,take_append,drop_append,take_of_length_le bound,drop_eq_nil_of_le bound]
        exact ⟨congrArg _ taken,left⟩

end Lenient

end Streams
