import Mathlib.Data.List.Basic

namespace CommonTools.Applications.LocalLaunch
open List

-- A process by the ranks it was forked for: the caller is [], and the child that a
-- process forks for a rank has that rank in front.
abbrev Process := List Nat

-- Everything a loop does, in the process that runs it and in those that come of it.
structure Launched where
  forked : List Process
  program : List Process
  past : List Process
  threw : List Process
  deriving DecidableEq

def Launched.and (one two : Launched) : Launched :=
  ⟨one.forked ++ two.forked,one.program ++ two.program,one.past ++ two.past,one.threw ++ two.threw⟩

-- The loop from rank i on. A child in which execvpe returns is still in the loop.
def launchLoop (forks execs : Process → Bool) : (left : Nat) → (self : Process) → (i : Nat) → Launched
  | 0,self,_ => ⟨[],[],[self],[]⟩
  | left + 1,self,i =>
    let child := i :: self
    if forks child then
      let inChild := if execs child then ⟨[],[child],[],[]⟩ else launchLoop forks execs left child (i + 1)
      Launched.and ⟨[child],[],[],[]⟩ (inChild.and (launchLoop forks execs left self (i + 1)))
    else ⟨[],[],[],[self]⟩

def launch (forks execs : Process → Bool) (numPEs : Int) : Launched := launchLoop forks execs numPEs.toNat [] 0

-- Every fork succeeds; which of the processes become the program is up to execs.
structure Once (execs : Process → Bool) (n : Nat) : Prop where
  forked : (launch (fun _ => true) execs n).forked.length = n
  left : ∀ child ∈ (launch (fun _ => true) execs n).forked,
    child ∉ (launch (fun _ => true) execs n).past ∧ child ∉ (launch (fun _ => true) execs n).threw
  caller : (launch (fun _ => true) execs n).past = [[]]

section Loop
variable (execs : Process → Bool)

theorem launchLoop_succ (left : Nat) (self : Process) (i : Nat) :
    launchLoop (fun _ => true) execs (left + 1) self i = Launched.and ⟨[i :: self],[],[],[]⟩
      ((if execs (i :: self) then ⟨[],[i :: self],[],[]⟩ else launchLoop (fun _ => true) execs left (i :: self) (i + 1)).and
        (launchLoop (fun _ => true) execs left self (i + 1))) := rfl

theorem loop_once (works : ∀ rank, i ≤ rank → rank < i + left → execs (rank :: self) = true) :
    ∃ program, launchLoop (fun _ => true) execs left self i = ⟨(List.range' i left).map (· :: self),program,[self],[]⟩ := by
  induction left generalizing i with
  | zero => exact ⟨[],rfl⟩
  | succ left ih =>
    obtain ⟨program,rest⟩ := ih (i := i + 1) fun rank low high => works rank (by omega) (by omega)
    refine ⟨(i :: self) :: program,?_⟩
    rw [launchLoop_succ,rest,works i (by omega) (by omega),if_pos rfl]
    rfl

theorem loop_past (left : Nat) (self : Process) (i : Nat) : 0 < (launchLoop (fun _ => true) execs left self i).past.length := by
  induction left generalizing i with
  | zero => exact Nat.one_pos
  | succ left ih =>
    have rest := ih (i + 1)
    rw [launchLoop_succ]
    simp only [Launched.and,length_append,nil_append]
    omega

theorem loop_fails (alone : (launchLoop (fun _ => true) execs left self i).past.length = 1) :
    ∀ rank, i ≤ rank → rank < i + left → execs (rank :: self) = true := by
  induction left generalizing i with
  | zero => intro rank low high; omega
  | succ left ih =>
    have rest := loop_past execs left self (i + 1)
    rw [launchLoop_succ] at alone
    simp only [Launched.and,length_append,nil_append] at alone
    cases worked : execs (i :: self) with
    | false =>
      have child := loop_past execs left (i :: self) (i + 1)
      simp only [worked,Bool.false_eq_true,if_false] at alone
      omega
    | true =>
      simp only [worked,if_true,length_nil,Nat.zero_add] at alone
      intro rank low high
      rcases Nat.eq_or_lt_of_le low with rfl | later
      · exact worked
      · exact ih alone rank later (by omega)

end Loop

theorem local_launch_exact (execs : Process → Bool) (n : Nat) : Once execs n ↔ ∀ rank < n, execs [rank] = true := by
  constructor
  · intro once rank less
    have alone := congrArg List.length once.caller
    exact loop_fails execs alone rank (Nat.zero_le _) (by simpa using less)
  · intro works
    have each : ∀ rank, 0 ≤ rank → rank < 0 + n → execs [rank] = true := fun rank _ less => works rank (by omega)
    obtain ⟨program,whole⟩ := loop_once execs each
    have launched : launch (fun _ => true) execs n = ⟨(List.range' 0 n).map ([·]),program,[[]],[]⟩ := whole
    refine ⟨?_,fun child forked => ?_,?_⟩
    · rw [launched,length_map,length_range']
    · rw [launched] at forked ⊢
      obtain ⟨rank,_,rfl⟩ := mem_map.mp forked
      simp
    · rw [launched]

-- A program that can not be started: seven forks for three ranks, and eight processes go on.
theorem failed_execs_fork_on :
    (launch (fun _ => true) (fun _ => false) 3).forked.length = 7 ∧
    (launch (fun _ => true) (fun _ => false) 3).past.length = 8 := by decide

end CommonTools.Applications.LocalLaunch
