import CommonTools.Library.Numerals
import CommonTools.Backend.Destroy

namespace CommonTools.Backend
open Numerals List

abbrev ToolPid := BitVec 32

-- Each tool daemon writes its pid at the end of the file, which is locked meanwhile.
def appendPid (file : List UInt8) (pid : ToolPid) : List UInt8 := file ++ little 4 pid.toNat

-- One pass of the loop: the bytes of a short read go over the front of the last pid.
def PidChain.take (chain : PidChain) (pid : List UInt8) (nr : Nat) : PidChain :=
  let stored : PidBlock := ⟨chain.last.pids.set chain.last.idx (unlittle pid),nr / pidSize⟩
  if stored.idx ≥ 32 then ⟨chain.full ++ [stored],.fresh⟩ else ⟨chain.full,stored⟩

def readLoop : Nat → List UInt8 → PidChain → List UInt8 → PidChain
  | 0,_,chain,_ => chain
  | fuel + 1,pid,chain,file =>
    let got := file.take pidSize
    if got = [] then chain
    else
      let pid := got ++ pid.drop got.length
      readLoop fuel pid (chain.take pid got.length) (file.drop pidSize)

def readPidFile (file : List UInt8) : PidChain := readLoop (file.length + 1) [0,0,0,0] .fresh file

-- kill with signal 0 tells whether the process is there.
def sentKills (alive : Nat → Bool) (chain : PidChain) : List Nat := chain.targets.filter alive

def pidFileOf (pids : List ToolPid) : List UInt8 := pids.foldl appendPid []

def recorded (pids : List ToolPid) : List Nat := pids.map BitVec.toNat

def KillsAlive (pids : List ToolPid) (alive : Nat → Bool) : Prop :=
  ∀ pid, pid ∈ sentKills alive (readPidFile (pidFileOf pids)) ↔ pid ∈ recorded pids ∧ alive pid = true

structure CleansUp (pids : List ToolPid) (alive : Nat → Bool) : Prop where
  readBack : (readPidFile (pidFileOf pids)).targets = recorded pids
  kills : KillsAlive pids alive

theorem pidFileOf_records : pidFileOf pids = pids.flatMap fun pid => little 4 pid.toNat := by
  have grown : ∀ file : List UInt8, pids.foldl appendPid file = file ++ pids.flatMap fun pid => little 4 pid.toNat := by
    induction pids with
    | nil => simp
    | cons pid pids ih => simp [ih,appendPid]
  simpa [pidFileOf] using grown []

theorem take_whole (chain : PidChain) (pid : ToolPid) (last : List UInt8) (size : last.length = 4) :
    chain.take (little 4 pid.toNat ++ last.drop (little 4 pid.toNat).length) (little 4 pid.toNat).length = chain.store pid.toNat := by
  have rest : last.drop (little 4 pid.toNat).length = [] := by
    rw [little_length,← size]
    exact drop_length
  have value : unlittle (little 4 pid.toNat) = pid.toNat := by
    rw [unlittle_little]
    exact Nat.mod_eq_of_lt pid.isLt
  rw [rest,append_nil]
  unfold PidChain.take PidChain.store
  rw [value]
  rfl

theorem readLoop_records (pids : List ToolPid) (fuel : Nat) (enough : pids.length < fuel) (last : List UInt8)
    (size : last.length = 4) (chain : PidChain) :
    readLoop fuel last chain (pids.flatMap fun pid => little 4 pid.toNat) = (recorded pids).foldl PidChain.store chain := by
  induction pids generalizing fuel last chain with
  | nil =>
    cases fuel with
    | zero => cases enough
    | succ fuel => simp [readLoop,recorded]
  | cons pid pids ih =>
    cases fuel with
    | zero => cases enough
    | succ fuel =>
      have four := little_length 4 pid.toNat
      have got : ((little 4 pid.toNat) ++ pids.flatMap fun pid => little 4 pid.toNat).take pidSize = little 4 pid.toNat := take_left' four
      have left : ((little 4 pid.toNat) ++ pids.flatMap fun pid => little 4 pid.toNat).drop pidSize =
          pids.flatMap fun pid => little 4 pid.toNat := drop_left' four
      have some' : little 4 pid.toNat ≠ [] := cons_ne_nil _ _
      have whole : (little 4 pid.toNat ++ last.drop (little 4 pid.toNat).length).length = 4 := by simp [four,size]
      rw [flatMap_cons,readLoop]
      rw [got,left,if_neg some',ih fuel (Nat.lt_of_succ_lt_succ enough) _ whole,take_whole chain pid last size]
      rfl

theorem readPidFile_records : readPidFile (pidFileOf pids) = readPids (recorded pids) := by
  have size : pids.length < (pidFileOf pids).length + 1 := by
    rw [pidFileOf_records]
    induction pids with
    | nil => simp
    | cons pid pids ih =>
      simp only [flatMap_cons,length_append,length_cons,little_length] at ih ⊢
      omega
  rw [pidFileOf_records] at *
  exact readLoop_records pids _ size [0,0,0,0] rfl .fresh

theorem targets_records : (readPidFile (pidFileOf pids)).targets = (recorded pids).take 1 := by
  rw [readPidFile_records,targets_readPids]

theorem killsAlive_iff : KillsAlive pids alive ↔ ∀ pid ∈ pids.drop 1, alive pid.toNat = true → pids.head? = some pid := by
  unfold KillsAlive sentKills
  rw [targets_records]
  cases pids with
  | nil => simp [recorded]
  | cons first rest =>
    simp only [recorded,map_cons,take_succ_cons,take_zero,mem_filter,mem_cons,not_mem_nil,or_false,
      drop_succ_cons,drop_zero,List.head?_cons,Option.some.injEq]
    constructor
    · intro kills pid later running
      have sent := (kills pid.toNat).mpr ⟨.inr (mem_map_of_mem later),running⟩
      exact BitVec.eq_of_toNat_eq sent.1.symm
    · intro only pid
      refine ⟨fun sent => ⟨.inl sent.1,sent.2⟩,fun known => ⟨?_,known.2⟩⟩
      rcases known.1 with same | later
      · exact same
      · obtain ⟨other,inside,rfl⟩ := mem_map.mp later
        rw [only other inside known.2]

-- The fill count of a block is that of the last read, which is one.
theorem clean_up_exact (pids : List ToolPid) (alive : Nat → Bool) : (CleansUp pids alive ↔ pids.length ≤ 1) ∧
      (KillsAlive pids alive ↔ ∀ pid ∈ pids.drop 1, alive pid.toNat = true → pids.head? = some pid) := by
  refine ⟨⟨fun cleans => ?_,fun few => ⟨?_,?_⟩⟩,killsAlive_iff⟩
  · have lengths := congrArg List.length (cleans.readBack.symm.trans targets_records)
    simp [recorded] at lengths
    omega
  · rw [targets_records]
    exact take_of_length_le (by simpa [recorded] using few)
  · rw [killsAlive_iff,drop_eq_nil_of_le few]
    simp

theorem second_daemon_survives : sentKills (fun _ => true) (readPidFile (pidFileOf [70,71])) = [70] ∧ ¬ CleansUp [70,71] fun _ => true := by
  refine ⟨by decide,fun cleans => ?_⟩
  have back := cleans.readBack
  rw [targets_records] at back
  cases back

end CommonTools.Backend
