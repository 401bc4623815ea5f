import CommonTools.Placement.Proctable

namespace CommonTools.Placement.Flux
open Numerals Scanning FeDaemon List Ptree

inductive Block where
  | one (d : Int)
  | pair (d x : Int)
  | times (d x : Int) (r : Nat)

def Block.tree : Block → Ptree
  | .one d => number d
  | .pair d x => array [number d,number x]
  | .times d x r => array [number d,number x,number r]

def rangeTree (blocks : List Block) : Ptree := array (blocks.map Block.tree)

-- [d,x] at the value v: v to v + x, or v repeated as often as a negative x says.
def pairValues (v x : Int) : List Int :=
  if x < 0 then List.replicate (- x + 1).toNat v else (List.range (x + 1).toNat).map fun (i : Nat) => v + (i : Int)

def pairLast (v x : Int) : Int := if x < 0 then v else v + x

-- What the next delta is added to. Behind a value that is no number it is left open.
def follow (reset : Int → Int) (v last : Int) : Int := if v < 0 then reset last else last

def turns (reset : Int → Int) (d x : Int) : Nat → Int → List Int × Int
  | 0,base => ([],base)
  | n + 1,base =>
    let v := base + d
    let rest := turns reset d x n (follow reset v (pairLast v x))
    (pairValues v x ++ rest.1,rest.2)

def Block.meant (reset : Int → Int) (base : Int) : Block → List Int × Int
  | .one d => ([base + d],follow reset (base + d) (base + d))
  | .pair d x => turns reset d x 1 base
  | .times d x r => turns reset d x (r + 1) base

def meant (reset : Int → Int) : Int → List Block → List Int
  | _,[] => []
  | base,block :: rest => (block.meant reset base).1 ++ meant reset (block.meant reset base).2 rest

def SmallRun (x : Int) : Prop := - x + 1 < 2 ^ 31

def Block.Small : Block → Prop
  | .one _ => True
  | .pair _ x => SmallRun x
  | .times _ x r => SmallRun x ∧ r + 1 < 2 ^ 31

-- How often a block is applied: the number of repetitions is an int, too.
def repeats (r : Nat) : Nat := (Int.bmod ((r : Int) + 1) (2 ^ 32)).toNat

def Block.ranges (base : Int) : Block → List RangeList × Int
  | .one d => ([.rle (base + d) 1],base + d)
  | .pair d x => nextRanges d x 1 base
  | .times d x r => nextRanges d x (repeats r) base

def Block.read (base : Int) (block : Block) : List Int := (block.ranges base).1.flatMap RangeList.values

def readAll : Int → List Block → List Int
  | _,[] => []
  | base,block :: rest => block.read base ++ readAll (block.ranges base).2 rest

def IntSized (bits : Nat) (n : Int) : Prop := - 2 ^ (bits - 1) ≤ n ∧ n < 2 ^ (bits - 1)

def Block.Fits : Block → Prop
  | .one d => IntSized 64 d
  | .pair d x => IntSized 32 d ∧ IntSized 32 x
  | .times d x r => IntSized 32 d ∧ IntSized 32 x ∧ IntSized 32 r

theorem streamInt_decimal :
    (IntSized bits n → streamInt bits (decimalInt n) = some n) ∧ (¬ IntSized bits n → streamInt bits (decimalInt n) = none) := by
  have plain : ∀ m : Nat, (decimal m).takeWhile isDigit = decimal m ∧ (decimal m).dropWhile isDigit = [] := fun m =>
    ⟨takeWhile_eq_self_iff.mpr fun b inside => decimal_digits inside,
      dropWhile_eq_nil_iff.mpr fun b inside => decimal_digits inside⟩
  have value : streamInt bits (decimalInt n) =
      if n < - 2 ^ (bits - 1) ∨ 2 ^ (bits - 1) ≤ n then none else some n := by
    unfold decimalInt streamInt
    by_cases negative : n < 0
    · have sign : (45 :: decimal n.natAbs).dropWhile isSpace = 45 :: decimal n.natAbs := rfl
      have number : - (n.natAbs : Int) = n := by omega
      rw [if_pos negative,sign]
      simp only [readSign,(plain n.natAbs).1,(plain n.natAbs).2,decimal_value,if_true,number]
      rw [if_neg (by simp [decimal_ne])]
    · obtain ⟨b,rest,digits⟩ := exists_cons_of_ne_nil (decimal_ne n.toNat)
      obtain ⟨space,minus,plus⟩ := digit_other (decimal_digits (n := n.toNat) (digits ▸ mem_cons_self))
      have start : (decimal n.toNat).dropWhile isSpace = decimal n.toNat := by simp [digits,space]
      have sign : readSign (decimal n.toNat) = (false,0,decimal n.toNat) := by rw [digits,readSign_none minus plus]
      have number : (n.toNat : Int) = n := by omega
      rw [if_neg negative,start,sign]
      simp only [(plain n.toNat).1,(plain n.toNat).2,decimal_value,Bool.false_eq_true,if_false,number]
      rw [if_neg (by simp [decimal_ne])]
  rw [value]
  constructor
  · intro sized
    exact if_neg fun outside => by
      unfold IntSized at sized
      omega
  · intro outside
    exact if_pos (by unfold IntSized at outside; omega)

theorem getInt_sized (sized : IntSized 32 n) : (number n).getInt = .ok n := by
  rw [getInt,number,data,toText,streamInt_decimal.1 sized]

theorem getInt_large (large : ¬ IntSized 32 n) : ∃ what, (number n).getInt = .error what := by
  rw [getInt,number,data,toText,streamInt_decimal.2 large]
  exact ⟨_,rfl⟩

theorem decimalInt_ne : decimalInt n ≠ [] := by
  unfold decimalInt
  split
  · exact cons_ne_nil _ _
  · exact decimal_ne _

theorem parse_one : parseRangeList (number d) base = do
    let value ← (number d).getLong
    return ([.rle (base + value) 1],base + value) := if_pos decimalInt_ne

theorem parse_pair : parseRangeList (array [first,second]) base = do
    let first ← first.getInt
    let second ← second.getInt
    return nextRanges first second 1 base := if_neg (by simp [array,data,noText])

theorem parse_times : parseRangeList (array [first,second,times]) base = do
    let first ← first.getInt
    let second ← second.getInt
    let times ← times.getInt
    return nextRanges first second (Int.bmod (times + 1) (2 ^ 32)).toNat base := if_neg (by simp [array,data,noText])

theorem parse_fits {block : Block} (fits : block.Fits) : parseRangeList block.tree base = .ok (block.ranges base) := by
  cases block with
  | one d =>
    have long : (number d).getLong = .ok d := by rw [getLong,number,data,toText,streamInt_decimal.1 fits]
    rw [Block.tree,parse_one,long]
    rfl
  | pair d x =>
    obtain ⟨first,second⟩ := fits
    rw [Block.tree,parse_pair,getInt_sized first,getInt_sized second]
    rfl
  | times d x r =>
    obtain ⟨first,second,third⟩ := fits
    rw [Block.tree,parse_times,getInt_sized first,getInt_sized second,getInt_sized third]
    rfl

theorem parse_unfit {block : Block} (unfit : ¬ block.Fits) : ∃ what, parseRangeList block.tree base = .error what := by
  cases block with
  | one d =>
    have long : ∃ what, (number d).getLong = .error what := by
      rw [getLong,number,data,toText,streamInt_decimal.2 unfit]
      exact ⟨_,rfl⟩
    obtain ⟨what,failed⟩ := long
    exact ⟨what,by rw [Block.tree,parse_one,failed]; rfl⟩
  | pair d x =>
    rw [Block.tree,parse_pair]
    by_cases first : IntSized 32 d
    · obtain ⟨what,failed⟩ := getInt_large fun second => unfit ⟨first,second⟩
      exact ⟨what,by rw [getInt_sized first,failed]; rfl⟩
    · obtain ⟨what,failed⟩ := getInt_large first
      exact ⟨what,by rw [failed]; rfl⟩
  | times d x r =>
    rw [Block.tree,parse_times]
    by_cases first : IntSized 32 d
    · by_cases second : IntSized 32 x
      · obtain ⟨what,failed⟩ := getInt_large fun third => unfit ⟨first,second,third⟩
        exact ⟨what,by rw [getInt_sized first,getInt_sized second,failed]; rfl⟩
      · obtain ⟨what,failed⟩ := getInt_large second
        exact ⟨what,by rw [getInt_sized first,failed]; rfl⟩
    · obtain ⟨what,failed⟩ := getInt_large first
      exact ⟨what,by rw [failed]; rfl⟩

theorem blocks_fit (blocks : List Block) : ∀ result base, (∀ block ∈ blocks, block.Fits) →
    ∃ last, (blocks.map fun block => (noText,block.tree)).foldlM addRangeList (result,base) =
      Except.ok (ε := String) (result ++ readAll base blocks,last) := by
  induction blocks with
  | nil => exact fun result base _ => ⟨base,by simp [readAll,Pure.pure,Except.pure]⟩
  | cons block blocks ih =>
    intro result base fits
    obtain ⟨last,rest⟩ := ih (result ++ block.read base) (block.ranges base).2
      fun block inside => fits block (mem_cons_of_mem _ inside)
    refine ⟨last,?_⟩
    rw [map_cons,foldlM_cons,addRangeList,parse_fits (fits block mem_cons_self)]
    rw [readAll,← append_assoc]
    exact rest

theorem blocks_unfit {blocks : List Block} {block : Block} (inside : block ∈ blocks) (unfit : ¬ block.Fits) :
    ∀ state, ∃ what, (blocks.map fun block => (noText,block.tree)).foldlM addRangeList state = Except.error (α := List Int × Int) what := by
  induction blocks with
  | nil => cases inside
  | cons head blocks ih =>
    rintro ⟨result,base⟩
    rw [map_cons,foldlM_cons,addRangeList]
    by_cases fits : head.Fits
    · have later : block ∈ blocks := (mem_cons.mp inside).resolve_left fun same => unfit (same ▸ fits)
      obtain ⟨what,failed⟩ := ih later (result ++ head.read base,(head.ranges base).2)
      refine ⟨what,?_⟩
      rw [parse_fits fits]
      exact failed
    · obtain ⟨what,failed⟩ := parse_unfit fits
      exact ⟨what,by rw [failed]; rfl⟩

theorem flatten_blocks {blocks : List Block} :
    flattenRangeList (rangeTree blocks) = .ok values ↔ (∀ block ∈ blocks, block.Fits) ∧ readAll 0 blocks = values := by
  have children : (rangeTree blocks).children = blocks.map fun block => (noText,block.tree) := by
    rw [rangeTree,array,map_map]
    rfl
  rw [flattenRangeList,children]
  by_cases fits : ∀ block ∈ blocks, block.Fits
  · obtain ⟨last,read⟩ := blocks_fit blocks [] 0 fits
    rw [read]
    refine ⟨fun same => ⟨fits,?_⟩,fun both => ?_⟩
    · simpa [Bind.bind,Except.bind,Pure.pure,Except.pure] using same
    · simp [Bind.bind,Except.bind,Pure.pure,Except.pure,both.2]
  · obtain ⟨block,inside,unfit⟩ : ∃ block ∈ blocks, ¬ block.Fits := by simpa using fits
    obtain ⟨what,failed⟩ := blocks_unfit inside unfit ([],0)
    rw [failed]
    refine ⟨nofun,fun both => absurd both.1 fits⟩

section Turns
variable {reset : Int → Int} {d x base : Int}

theorem pairValues_length (v w x : Int) : (pairValues v x).length = (pairValues w x).length := by
  unfold pairValues
  split <;> simp

theorem pairValues_first (v x : Int) : v ∈ pairValues v x := by
  unfold pairValues
  split
  · exact mem_replicate.mpr ⟨by omega,rfl⟩
  · exact mem_map.mpr ⟨0,mem_range.mpr (by omega),by simp⟩

theorem pairValues_last : pairLast v x ∈ pairValues v x := by
  unfold pairValues pairLast
  split
  · exact mem_replicate.mpr ⟨by omega,rfl⟩
  · exact mem_map.mpr ⟨x.toNat,mem_range.mpr (by omega),by omega⟩

theorem pairValues_least (inside : w ∈ pairValues v x) : v ≤ w := by
  unfold pairValues at inside
  split at inside
  · exact (mem_replicate.mp inside).2.symm.le
  · obtain ⟨i,_,rfl⟩ := mem_map.mp inside
    omega

theorem count_wrapped (positive : 0 ≤ m) : (Int.bmod m (2 ^ 32)).toNat ≤ m.toNat := by
  simp only [Int.bmod]
  split <;> omega

theorem count_small (positive : 0 ≤ m) (small : m < 2 ^ 31) : Int.bmod m (2 ^ 32) = m := Int.bmod_eq_of_le (by omega) (by omega)

theorem count_large (large : 2 ^ 31 ≤ m) (bound : m < 2 ^ 32) : (Int.bmod m (2 ^ 32)).toNat = 0 := by
  simp only [Int.bmod]
  split <;> omega

theorem range_values : (RangeList.range start last).values =
    (List.range (last - start + 1).toNat).map fun (i : Nat) => start + (i : Int) := by
  simp [RangeList.values,map_eq_flatMap,flatMap_assoc]

theorem turn_length (d x base v : Int) : ((nextRange d x base).1.values).length ≤ (pairValues v x).length := by
  unfold nextRange pairValues
  by_cases absent : d + base < 0
  · simp [absent,RangeList.values]
  · by_cases run : x < 0
    · simp only [absent,run,if_true,if_false,RangeList.values,length_replicate]
      exact count_wrapped (by omega)
    · simp only [absent,run,if_false,range_values,length_map,length_range]
      omega

theorem turn_exact (present : 0 ≤ base + d) (small : SmallRun x) :
    (nextRange d x base).1.values = pairValues (base + d) x ∧ (nextRange d x base).2 = pairLast (base + d) x := by
  have value : d + base = base + d := Int.add_comm d base
  unfold nextRange pairValues pairLast
  rw [value]
  have absent : ¬ base + d < 0 := by omega
  by_cases run : x < 0
  · simp only [absent,run,if_true,if_false,RangeList.values,count_small (m := - x + 1) (by omega) small,and_self]
  · have size : base + d + x - (base + d) + 1 = x + 1 := by omega
    simp only [absent,run,if_false,range_values,size,and_self]

theorem turn_short (sized : IntSized 32 x) (wrong : ¬ (0 ≤ base + d ∧ SmallRun x)) (v : Int) :
    ((nextRange d x base).1.values).length < (pairValues v x).length := by
  have positive := length_pos_of_mem (pairValues_first v x)
  unfold IntSized at sized
  unfold nextRange
  by_cases absent : d + base < 0
  · simpa [absent,RangeList.values] using positive
  · have large : ¬ SmallRun x := fun small => wrong ⟨by omega,small⟩
    unfold SmallRun at large
    have run : x < 0 := by omega
    simp only [absent,run,if_true,if_false,RangeList.values,length_replicate,count_large (m := - x + 1) (by omega) (by omega)]
    exact positive

theorem turns_length (d x : Int) (n : Nat) (base base' : Int) :
    ((nextRanges d x n base).1.flatMap RangeList.values).length ≤ (turns reset d x n base').1.length := by
  induction n generalizing base base' with
  | zero => simp [nextRanges,turns]
  | succ n ih =>
    have head := turn_length d x base (base' + d)
    have rest := ih (nextRange d x base).2 (follow reset (base' + d) (pairLast (base' + d) x))
    simp only [nextRanges,turns,flatMap_cons,length_append]
    omega

theorem follow_present (present : 0 ≤ v) : follow reset v last = last := if_neg (by omega)

theorem turns_exact (small : SmallRun x) (n : Nat) (base : Int) (present : ∀ v ∈ (turns reset d x n base).1, 0 ≤ v) :
    (nextRanges d x n base).1.flatMap RangeList.values = (turns reset d x n base).1 ∧
      (nextRanges d x n base).2 = (turns reset d x n base).2 := by
  induction n generalizing base with
  | zero => exact ⟨rfl,rfl⟩
  | succ n ih =>
    simp only [turns,forall_mem_append] at present
    have value := present.1 _ (pairValues_first _ x)
    obtain ⟨head,last⟩ := turn_exact value small
    have later := present.2
    rw [follow_present value] at later
    obtain ⟨rest,ends⟩ := ih _ later
    simp only [nextRanges,turns,flatMap_cons,head,last,follow_present value]
    exact ⟨congrArg _ rest,ends⟩

theorem turns_short (sized : IntSized 32 x) (n : Nat) (base : Int)
    (wrong : ¬ ((∀ v ∈ (turns reset d x (n + 1) base).1, 0 ≤ v) ∧ SmallRun x)) :
    ((nextRanges d x (n + 1) base).1.flatMap RangeList.values).length < (turns reset d x (n + 1) base).1.length := by
  induction n generalizing base with
  | zero =>
    have first : ¬ (0 ≤ base + d ∧ SmallRun x) := by
      rintro ⟨present,small⟩
      refine wrong ⟨fun v inside => ?_,small⟩
      simp only [turns,append_nil] at inside
      exact present.trans (pairValues_least inside)
    simpa [nextRanges,turns] using turn_short sized first (base + d)
  | succ n ih =>
    have rest := @turns_length reset d x (n + 1) (nextRange d x base).2 (follow reset (base + d) (pairLast (base + d) x))
    rw [nextRanges,turns,flatMap_cons,length_append,length_append]
    by_cases first : 0 ≤ base + d ∧ SmallRun x
    · obtain ⟨head,last⟩ := turn_exact first.1 first.2
      have later := ih (pairLast (base + d) x) fun both => wrong ⟨?_,both.2⟩
      · rw [head,last,follow_present first.1]
        omega
      · rw [turns,forall_mem_append,follow_present first.1]
        exact ⟨fun v inside => first.1.trans (pairValues_least inside),both.1⟩
    · have head := turn_short sized first (base + d)
      omega

end Turns

section Blocks
variable {reset : Int → Int} {base : Int} {block : Block}

def Block.Plain (reset : Int → Int) (base : Int) (block : Block) : Prop :=
  (∀ v ∈ (block.meant reset base).1, 0 ≤ v) ∧ block.Small

theorem repeats_small (small : r + 1 < 2 ^ 31) : repeats r = r + 1 :=
  (congrArg Int.toNat (count_small (show (0 : Int) ≤ (r : Int) + 1 by omega) (by omega))).trans (by omega)

theorem repeats_le (r : Nat) : repeats r ≤ r + 1 := (count_wrapped (show (0 : Int) ≤ (r : Int) + 1 by omega)).trans (by omega)

theorem repeats_large {r : Nat} (large : ¬ r + 1 < 2 ^ 31) (sized : IntSized 32 r) : repeats r = 0 := by
  unfold IntSized at sized
  exact count_large (show 2 ^ 31 ≤ (r : Int) + 1 by omega) (by omega)

theorem turns_size (d x : Int) (n : Nat) (base : Int) : (turns reset d x n base).1.length = n * (pairValues 0 x).length := by
  induction n generalizing base with
  | zero => simp [turns]
  | succ n ih =>
    rw [turns,length_append,ih,pairValues_length (base + d) 0 x]
    ring

theorem read_length (block : Block) (base base' : Int) : (block.read base).length ≤ (block.meant reset base').1.length := by
  cases block with
  | one d => simp [Block.read,Block.ranges,Block.meant,RangeList.values]
  | pair d x => exact turns_length d x 1 base base'
  | times d x r =>
    have own := @turns_length reset d x (repeats r) base base'
    rw [turns_size] at own
    refine own.trans ?_
    rw [Block.meant,turns_size]
    exact Nat.mul_le_mul_right _ (repeats_le r)

theorem read_exact (plain : block.Plain reset base) :
    block.read base = (block.meant reset base).1 ∧ (block.ranges base).2 = (block.meant reset base).2 := by
  obtain ⟨present,small⟩ := plain
  cases block with
  | one d => exact ⟨rfl,(follow_present (present _ mem_cons_self)).symm⟩
  | pair d x => exact turns_exact small 1 base present
  | times d x r =>
    rw [Block.read,Block.ranges,repeats_small small.2]
    exact turns_exact small.1 (r + 1) base present

variable {β : Type} {text shown : Int → β}

theorem read_wrong (fits : block.Fits) (wrong : ¬ block.Plain reset base) (apart : ∀ v < 0, text v ≠ shown v) :
    (block.read base).map text ≠ (block.meant reset base).1.map shown := by
  intro same
  have lengths := congrArg List.length same
  rw [length_map,length_map] at lengths
  cases block with
  | one d =>
    refine wrong ⟨fun v inside => ?_,trivial⟩
    cases mem_singleton.mp inside
    by_contra negative
    exact apart (base + d) (by omega) (List.cons.inj same).1
  | pair d x =>
    have short := @turns_short reset d x fits.2 0 base wrong
    exact absurd lengths (Nat.ne_of_lt short)
  | times d x r =>
    by_cases small : r + 1 < 2 ^ 31
    · rw [Block.read,Block.ranges,repeats_small small] at lengths
      have short := @turns_short reset d x fits.2.1 r base fun both => wrong ⟨both.1,both.2,small⟩
      exact absurd lengths (Nat.ne_of_lt short)
    · rw [Block.read,Block.ranges,repeats_large small fits.2.2] at lengths
      have size := @turns_size reset d x (r + 1) base
      have positive := length_pos_of_mem (pairValues_first 0 x)
      have some' := Nat.mul_pos (Nat.succ_pos r) positive
      have none' := lengths
      exact Nat.ne_of_lt some' (none'.trans size)

end Blocks

section Lists
variable {reset : Int → Int}

theorem append_tight {a b c d : List β} (left : a.length ≤ c.length) (right : b.length ≤ d.length)
    (same : a ++ b = c ++ d) : a = c ∧ b = d := by
  have lengths := congrArg List.length same
  rw [length_append,length_append] at lengths
  exact append_inj same (by omega)

theorem readAll_length (blocks : List Block) (base base' : Int) : (readAll base blocks).length ≤ (meant reset base' blocks).length := by
  induction blocks generalizing base base' with
  | nil => exact Nat.le_refl _
  | cons block blocks ih =>
    have head := @read_length reset block base base'
    have rest := ih (block.ranges base).2 (block.meant reset base').2
    rw [readAll,meant,length_append,length_append]
    omega

theorem readAll_exact (blocks : List Block) (base : Int) (present : ∀ v ∈ meant reset base blocks, 0 ≤ v)
    (small : ∀ block ∈ blocks, block.Small) : readAll base blocks = meant reset base blocks := by
  induction blocks generalizing base with
  | nil => rfl
  | cons block blocks ih =>
    rw [meant,forall_mem_append] at present
    obtain ⟨head,last⟩ := read_exact ⟨present.1,small block mem_cons_self⟩
    rw [readAll,meant,head,last,ih _ present.2 fun block inside => small block (mem_cons_of_mem _ inside)]

-- The texts of the values that are read are those of the values that are meant, exactly if no value is absent
-- and the counts are small: whatever goes wrong with a block, later ones do not make up for it.
theorem readAll_texts {β : Type} {text shown : Int → β} (apart : ∀ v < 0, text v ≠ shown v) (blocks : List Block) (base : Int)
    (fits : ∀ block ∈ blocks, block.Fits) (same : (readAll base blocks).map text = (meant reset base blocks).map shown) :
    (∀ v ∈ meant reset base blocks, 0 ≤ v) ∧ ∀ block ∈ blocks, block.Small := by
  induction blocks generalizing base with
  | nil => exact ⟨by simp [meant],by simp⟩
  | cons block blocks ih =>
    rw [readAll,meant,map_append,map_append] at same
    have head := @read_length reset block base base
    have rest := @readAll_length reset blocks (block.ranges base).2 (block.meant reset base).2
    obtain ⟨own,others⟩ := append_tight (by simpa using head) (by simpa using rest) same
    have plain : block.Plain reset base := by
      by_contra wrong
      exact read_wrong (fits block mem_cons_self) wrong apart own
    rw [(read_exact plain).2] at others
    obtain ⟨present,small⟩ := ih _ (fun block inside => fits block (mem_cons_of_mem _ inside)) others
    exact ⟨forall_mem_append.mpr ⟨plain.1,present⟩,forall_mem_cons.mpr ⟨plain.2,small⟩⟩

end Lists

section Numbers
variable {d x base : Int}

def InRange (v : Int) : Prop := 0 ≤ v ∧ v < 2 ^ 31

theorem follow_id : follow id v last = last := by
  unfold follow
  split <;> rfl

theorem turns_last (start : InRange base) (range : ∀ v ∈ (turns id d x n base).1, InRange v) : InRange (turns id d x n base).2 := by
  induction n generalizing base with
  | zero => exact start
  | succ n ih =>
    rw [turns,forall_mem_append] at range
    refine ih ?_ range.2
    rw [follow_id]
    exact range.1 _ pairValues_last

theorem pair_fits (start : InRange base) (range : ∀ v ∈ pairValues (base + d) x, InRange v) (small : SmallRun x) :
    IntSized 32 d ∧ IntSized 32 x := by
  have first := range _ (pairValues_first _ _)
  have last := range _ pairValues_last
  unfold InRange at first last start
  unfold SmallRun at small
  unfold pairLast at last
  unfold IntSized
  split at last <;> omega

theorem block_fits {block : Block} (start : InRange base) (range : ∀ v ∈ (block.meant id base).1, InRange v) (small : block.Small) :
    block.Fits ∧ InRange (block.meant id base).2 := by
  cases block with
  | one d =>
    have value := range _ mem_cons_self
    refine ⟨?_,by rw [Block.meant,follow_id]; exact value⟩
    unfold InRange at value start
    unfold Block.Fits IntSized
    omega
  | pair d x =>
    refine ⟨pair_fits start (fun v inside => range v ?_) small,turns_last start range⟩
    exact mem_append_left _ inside
  | times d x r =>
    obtain ⟨first,second⟩ := pair_fits start (fun v inside => range v (mem_append_left _ inside)) small.1
    refine ⟨⟨first,second,?_⟩,turns_last start range⟩
    have count := small.2
    unfold IntSized
    omega

theorem meant_fits (start : InRange base) (range : ∀ v ∈ meant id base blocks, InRange v)
    (small : ∀ block ∈ blocks, block.Small) : ∀ block ∈ blocks, block.Fits := by
  induction blocks generalizing base with
  | nil => simp
  | cons block blocks ih =>
    rw [meant,forall_mem_append] at range
    obtain ⟨fits,next⟩ := block_fits start range.1 (small block mem_cons_self)
    exact forall_mem_cons.mpr ⟨fits,ih next range.2 fun block inside => small block (mem_cons_of_mem _ inside)⟩

end Numbers

-- A list of non-negative ints is decoded exactly, if the runs and repetitions of its encoding are counted by ints.
theorem range_list_decoded (values : List Int) (blocks : List Block) (encoded : meant id 0 blocks = values)
    (range : ∀ v ∈ values, 0 ≤ v ∧ v < 2 ^ 31) : flattenRangeList (rangeTree blocks) = .ok values ↔ ∀ block ∈ blocks, block.Small := by
  subst encoded
  rw [flatten_blocks]
  constructor
  · rintro ⟨fits,read⟩
    -- An absent value would show as 0, but none is absent.
    have shown : (meant id 0 blocks).map (fun v => if v < 0 then 0 else v) = meant id 0 blocks := by
      refine (map_congr_left fun v inside => ?_).trans (map_id _)
      exact if_neg (by have := range v inside; omega)
    refine (@readAll_texts id Int id (fun v => if v < 0 then 0 else v) ?_ blocks 0 fits ?_).2
    · intro v negative
      rw [if_pos negative]
      exact Int.ne_of_lt negative
    · rw [shown,map_id,read]
  · intro small
    refine ⟨meant_fits ⟨by omega,by omega⟩ range small,?_⟩
    exact readAll_exact blocks 0 (fun v inside => (range v inside).1) small

theorem range_list_decoded_mixed :
    flattenRangeList (rangeTree [.pair 1 2,.pair 5 (-1),.one (-8),.times 2 1 1]) = .ok [1,2,3,8,8,0,2,3,5,6] :=
  (range_list_decoded [1,2,3,8,8,0,2,3,5,6] [.pair 1 2,.pair 5 (-1),.one (-8),.times 2 1 1] (by decide) (by decide)).mpr (by
    simp [Block.Small,SmallRun])

theorem long_run_lost : (∀ v ∈ meant id 0 [.pair 7 (1 - 2 ^ 31)], v = 7) ∧ (meant id 0 [.pair 7 (1 - 2 ^ 31)]).length = 2 ^ 31 ∧
    flattenRangeList (rangeTree [.pair 7 (1 - 2 ^ 31)]) = .ok [] := by
  have values : meant id 0 [.pair 7 (1 - 2 ^ 31)] = pairValues 7 (1 - 2 ^ 31) := by
    rw [meant,meant,append_nil,Block.meant,turns,turns,append_nil,Int.zero_add]
  have run : pairValues 7 (1 - 2 ^ 31) = List.replicate (- (1 - 2 ^ 31 : Int) + 1).toNat 7 := if_pos (by omega)
  rw [values,run]
  refine ⟨fun v inside => (mem_replicate.mp inside).2,?_,by decide⟩
  rw [length_replicate]
  omega

end CommonTools.Placement.Flux
