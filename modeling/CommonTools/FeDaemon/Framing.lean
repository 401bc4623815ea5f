import CommonTools.Library.Texts
import CommonTools.FeDaemon.Readers

namespace CommonTools.FeDaemon
open Numerals Streams Texts List Command

-- Bytes that the stream buffer hands on as they are.
def Legible (text : Bytes) : Prop := 255 ∉ text

instance (text : Bytes) : Decidable (Legible text) := inferInstanceAs (Decidable (¬ _))

theorem plain_bytes : (plain bytes).map Cell.byte = bytes := by
  rw [plain,map_map]
  exact map_id bytes

theorem plain_append : plain (one ++ two) = plain one ++ plain two := map_append

theorem consumes_readBytes (bytes : Bytes) (size : bytes.length = wanted) : Consumes (readBytes wanted) (plain bytes) (.ok bytes) := by
  have whole : Consumes (readLoop (.text "read failed: zero bytes read") wanted : Read (List Cell)) (plain bytes)
      (.ok (plain bytes)) := consumes_readLoop (by rw [plain,length_map]; exact size)
  have mapped := consumes_map whole fun cells => cells.map Cell.byte
  rwa [plain_bytes] at mapped

theorem consumes_readInt (value : BitVec 32) : Consumes readInt (writeInt value) (.ok value) := by
  have mapped := consumes_map (consumes_readBytes (little 4 value.toNat) (little_length 4 _)) fun raw =>
    BitVec.ofNat 32 (unlittle raw)
  rwa [word_little (by decide)] at mapped

theorem consumes_readLong (value : BitVec 64) : Consumes readLong (plain (little 8 value.toNat)) (.ok value) := by
  have mapped := consumes_map (consumes_readBytes (little 8 value.toNat) (little_length 8 _)) fun raw =>
    BitVec.ofNat 64 (unlittle raw)
  rwa [word_little (by decide)] at mapped

theorem consumes_recvmsg : Consumes recvmsg [cell] (.ok cell.rights) := by
  intro s rest whole
  obtain ⟨single,left⟩ := read_one (s := s) whole
  exact ⟨_,by rw [recvmsg,single]; rfl,left⟩

theorem consumes_underflow : Consumes underflow (plain [b]) (.ok (signed b,some b)) := by
  intro s rest whole
  obtain ⟨single,left⟩ := read_one (s := s) whole
  exact ⟨_,by rw [underflow,single]; rfl,left⟩

theorem charOf_signed : charOf (signed b) = b := by
  have bound := b.toNat_lt
  have same : (signed b % 256).toNat = b.toNat := by unfold signed; split <;> omega
  rw [charOf,same]
  exact UInt8.ofNat_toNat

theorem signed_zero : signed b = 0 ↔ b = 0 := by
  rw [← UInt8.toNat_inj]
  have bound := b.toNat_lt
  change _ ↔ b.toNat = 0
  unfold signed
  split <;> omega

theorem signed_eof : signed b = EOF ↔ b = 255 := by
  rw [← UInt8.toNat_inj]
  change _ ↔ b.toNat = 255
  unfold signed EOF
  split <;> omega

theorem getlineLoop_end (stop : c = EOF ∨ c = 0) (enough : 0 < fuel) : getlineLoop fuel c held str = pure (c,held,str) := by
  obtain ⟨fuel,rfl⟩ := Nat.exists_eq_add_one.mpr enough
  rw [getlineLoop,if_pos stop]

theorem getlineLoop_more (text : b ≠ 0) (legible : b ≠ 255) :
    getlineLoop (fuel + 1) (signed b) held str = underflow >>= fun (next,held) => getlineLoop fuel next held (str ++ [b]) := by
  have neither : ¬(signed b = EOF ∨ signed b = 0) := by
    rw [signed_eof,signed_zero]
    exact not_or.mpr ⟨legible,text⟩
  rw [getlineLoop,if_neg neither,charOf_signed]

theorem consumes_getlineLoop (clean : 0 ∉ text) (legible : Legible text)
    (stop : signed e = EOF ∨ signed e = 0) (begins : text ++ [e] = b :: later) (enough : later.length < fuel) (str : Bytes) :
    Consumes (getlineLoop fuel (signed b) (some b) str) (plain later) (.ok (signed e,some e,str ++ text)) := by
  induction text generalizing b later fuel str with
  | nil =>
    cases begins
    rw [getlineLoop_end stop enough,append_nil]
    exact consumes_pure
  | cons x text ih =>
    obtain ⟨rfl,begins'⟩ := List.cons.inj begins
    obtain ⟨fuel,rfl⟩ := Nat.exists_eq_add_one.mpr (Nat.zero_lt_of_lt enough)
    rw [getlineLoop_more (fun zero => clean (zero ▸ mem_cons_self))
      (fun full => legible (full ▸ mem_cons_self))]
    cases later with
    | nil => exact absurd begins' (append_ne_nil_of_right_ne_nil _ (cons_ne_nil _ _))
    | cons next later =>
      have rest := ih (fun zero => clean (mem_cons_of_mem _ zero)) (fun full => legible (mem_cons_of_mem _ full))
        begins' (Nat.lt_of_succ_lt_succ enough) (str ++ [x])
      rw [append_assoc] at rest
      exact consumes_bind consumes_underflow rest

theorem consumes_line (clean : 0 ∉ text) (legible : Legible text) (stop : signed e = EOF ∨ signed e = 0) :
    Consumes (getline .fresh) (plain (text ++ [e])) (.ok (text,if signed e = EOF then ⟨some e,true,text.isEmpty⟩ else .fresh)) := by
  cases begins : text ++ [e] with
  | nil => exact absurd begins (append_ne_nil_of_right_ne_nil _ (cons_ne_nil _ _))
  | cons b later =>
    have line : ∀ fuel, later.length < fuel →
        Consumes (getlineLoop fuel (signed b) (some b) []) (plain later) (.ok (signed e,some e,text)) :=
      fun fuel enough => consumes_getlineLoop clean legible stop begins enough []
    refine consumes_bind consumes_underflow (consumes_remaining fun fuel enough => ?_)
    have enough' : later.length < fuel := by rwa [length_map] at enough
    refine consumes_last (line fuel enough') ?_
    by_cases ended : signed e = EOF
    · simp only [if_pos ended]
      exact consumes_pure
    · simp only [if_neg ended]
      exact consumes_pure

theorem consumes_receiveString (message : String) (text : CStr) (legible : Legible text.1) :
    Consumes (receiveString message .fresh) (writeString text) (.ok (text.1,.fresh)) :=
  consumes_last (consumes_line text.2 legible (.inr rfl)) consumes_pure

theorem consumes_receiveStrings {texts : List CStr} (legible : ∀ text ∈ texts, Legible text.1) :
    Consumes (receiveStrings texts.length .fresh) (texts.flatMap writeString) (.ok (texts.map (·.1),.fresh)) := by
  induction texts with
  | nil => exact consumes_pure
  | cons text texts ih =>
    refine consumes_bind (consumes_receiveString _ text (legible text mem_cons_self)) ?_
    exact consumes_last (ih fun text among => legible text (mem_cons_of_mem _ among)) consumes_pure

theorem consumes_receiveCount : Consumes (receiveString message .fresh) (writeCount n) (.ok (decimal n,.fresh)) := by
  have digit : ∀ b ∈ decimal n, 48 ≤ b.toNat ∧ b.toNat ≤ 57 := fun b inside => by
    simpa [isDigit,UInt8.le_iff_toNat_le] using decimal_digits inside
  have clean : 0 ∉ decimal n := fun inside => by simpa using digit 0 inside
  have legible : Legible (decimal n) := fun inside => by simpa using digit 255 inside
  exact consumes_receiveString message ⟨decimal n,clean⟩ legible

theorem consumes_parseCount (small : n < 2 ^ 31) : Consumes (parseCount name (decimal n)) [] (.ok n) := by
  have parsed : parseCount name (decimal n) = pure n := by
    rw [parseCount,stoi_decimal small]
    exact if_pos rfl
  rw [parsed]
  exact consumes_pure

def variableName (entry : Bytes) : Bytes := (entry.drop blacklistTag.length).takeWhile (· ≠ 61)

-- An equals sign comes last, and a name with an underscore goes on after the
-- first one, without blanks.
def WellNamed (entry : Bytes) : Prop :=
  let rest := entry.drop blacklistTag.length
  let after := (rest.dropWhile (· ≠ 95)).tail
  61 ∉ rest.dropLast ∧ (95 ∈ rest → after ≠ []) ∧ ∀ b ∈ after, isSpace b = false

instance (entry : Bytes) : Decidable (WellNamed entry) := inferInstanceAs (Decidable (_ ∧ _ ∧ _))

theorem popEquals_name (last : 61 ∉ rest.dropLast) : popEquals rest = rest.takeWhile (· ≠ 61) := by
  cases rest using reverseRecOn with
  | nil => rfl
  | append_singleton front b =>
    rw [dropLast_concat] at last
    rw [popEquals,getLast?_concat,dropLast_concat,takeWhile_append_of_pos (unequal last)]
    by_cases equals : b = 61
    · subst equals
      exact (append_nil front).symm
    · have kept : [b].takeWhile (fun b => decide (b ≠ 61)) = [b] := takeWhile_cons_of_pos (decide_eq_true equals)
      rw [kept,if_neg fun same => equals (Option.some.inj same)]

-- What follows the second delimiter comes through split::string<2> as one word.
def Whole (delim : UInt8) (value : Bytes) : Prop :=
  delim ∈ value → (value.dropWhile (· ≠ delim)).tail ≠ [] ∧ ∀ b ∈ (value.dropWhile (· ≠ delim)).tail, isSpace b = false

instance (delim : UInt8) (value : Bytes) : Decidable (Whole delim value) := inferInstanceAs (Decidable (_ → _))

section Splitting
variable {delim : UInt8} {name : Bytes}

theorem takeField_sep (free : delim ∉ name) : takeField delim (name ++ delim :: rest,true) = (name,rest,true) := by
  unfold takeField
  rw [if_pos rfl,dropWhile_sep free,takeWhile_sep free]

theorem takeField_free (free : delim ∉ value) : takeField delim (value,true) = (value,[],false) := by
  unfold takeField
  rw [if_pos rfl,dropWhile_free free]

theorem word_whole {text : Bytes} : (text.dropWhile isSpace).takeWhile (!isSpace ·) = text ↔ ∀ b ∈ text, isSpace b = false := by
  constructor
  · intro same b inside
    rw [← same] at inside
    simpa using mem_takeWhile_imp inside
  · intro words
    have start : text.dropWhile isSpace = text := dropWhile_eq_self_iff.mpr fun positive space => by
      rw [words _ (getElem_mem positive)] at space
      cases space
    rw [start]
    exact takeWhile_eq_self_iff.mpr fun b inside => by rw [words b inside]; rfl

theorem splitTwo_first (free : delim ∉ name) (value : Bytes) : (splitTwo (name ++ delim :: value) delim).1 = name := by
  simp only [splitTwo,takeField_sep free]

theorem splitTwo_second (free : delim ∉ name) (value : Bytes) :
    (splitTwo (name ++ delim :: value) delim).2 = value ↔ Whole delim value := by
  simp only [splitTwo,takeField_sep free]
  by_cases inside : delim ∈ value
  · obtain ⟨left,right,rfl,fresh⟩ := eq_append_cons_of_mem inside
    unfold Whole
    simp only [takeField_sep fresh,dropWhile_sep fresh,if_true,tail_cons,inside,forall_const]
    split
    · rename_i empty
      refine ⟨fun same => absurd same (by simp),fun whole => ?_⟩
      exact absurd (word_whole.mpr whole.2 ▸ empty) whole.1
    · rename_i word
      rw [append_cancel_left_eq,cons_inj_right,word_whole]
      refine ⟨fun words => ⟨?_,words⟩,fun whole => whole.2⟩
      rintro rfl
      exact word rfl
  · simp only [takeField_free inside]
    exact ⟨fun _ present => absurd present inside,fun _ => rfl⟩

end Splitting

theorem splitTwo_rest (whole : Whole 95 rest) : (splitTwo (blacklistTag ++ rest) 95).2 = rest := by
  have tag : blacklistTag ++ rest = ascii "CTIBLACKLIST" ++ 95 :: rest := rfl
  rw [tag]
  exact (splitTwo_second (by decide) rest).mpr whole

theorem variableName_recovered (tagged : blacklistTag.isPrefixOf entry = true) (named : WellNamed entry) :
    popEquals (splitTwo entry 95).2 = variableName entry := by
  obtain ⟨rest,rfl⟩ := List.isPrefixOf_iff_prefix.mp tagged
  unfold WellNamed at named
  rw [drop_left] at named
  obtain ⟨last,more,words⟩ := named
  rw [variableName,drop_left,splitTwo_rest fun inside => ⟨more inside,words⟩,popEquals_name last]

def Launch.entries (launch : Launch) : List Bytes := (launch.env.getD []).map (·.1)

def Launch.meant (launch : Launch) : LaunchData :=
  ⟨some launch.stdio,launch.file.1,launch.argv.map (·.1),launch.entries.filter (!blacklistTag.isPrefixOf ·),
    (launch.entries.filter (blacklistTag.isPrefixOf ·)).map variableName⟩

structure Launch.Framed (launch : Launch) : Prop where
  file : Legible launch.file.1
  argv : ∀ text ∈ launch.argv, Legible text.1
  env : ∀ text ∈ launch.env.getD [], Legible text.1
  argc : launch.argv.length < 2 ^ 31
  envc : (launch.env.getD []).length < 2 ^ 31
  blacklist : ∀ entry ∈ launch.entries, blacklistTag.isPrefixOf entry = true → WellNamed entry

theorem foldl_addEnv {entries : List Bytes}
    (named : ∀ entry ∈ entries, blacklistTag.isPrefixOf entry = true → WellNamed entry) {data : LaunchData} :
    entries.foldl LaunchData.addEnv data =
      ⟨data.stdio,data.filepath,data.argvList,data.envList ++ entries.filter (!blacklistTag.isPrefixOf ·),
        data.envBlacklist ++ (entries.filter (blacklistTag.isPrefixOf ·)).map variableName⟩ := by
  induction entries generalizing data with
  | nil => simp
  | cons entry entries ih =>
    rw [foldl_cons,ih fun entry inside => named entry (mem_cons_of_mem _ inside)]
    cases tagged : blacklistTag.isPrefixOf entry with
    | true =>
      have recovered := variableName_recovered tagged (named entry mem_cons_self tagged)
      simp [LaunchData.addEnv,tagged,recovered]
    | false => simp [LaunchData.addEnv,tagged]

theorem consumes_readLaunchData {launch : Launch} (framed : launch.Framed) :
    Consumes readLaunchData (writeLaunchData launch) (.ok launch.meant) := by
  have named : launch.entries.foldl LaunchData.addEnv ⟨some launch.stdio,launch.file.1,launch.argv.map (·.1),[],[]⟩ =
      launch.meant := foldl_addEnv framed.blacklist
  rw [← named]
  refine consumes_bind consumes_recvmsg ?_
  refine consumes_bind (consumes_receiveString _ _ framed.file) ?_
  refine consumes_bind consumes_receiveCount ?_
  refine consumes_skip (consumes_parseCount framed.argc) ?_
  refine consumes_bind (consumes_receiveStrings framed.argv) ?_
  refine consumes_bind consumes_receiveCount ?_
  refine consumes_skip (consumes_parseCount framed.envc) ?_
  exact consumes_last (consumes_receiveStrings framed.env) consumes_pure

def Request.meant : Request → Command
  | .forkExecvpApp launch => .forkExecvpApp launch.meant
  | .forkExecvpUtil appId runMode launch => .forkExecvpUtil appId runMode.code launch.meant
  | .launchMPIR launch => .launchMPIR launch.meant
  | .launchMPIRShim shimBinaryPath temporaryShimBinDir shimmedLauncherPath launch =>
    .launchMPIRShim ⟨shimBinaryPath.1,temporaryShimBinDir.1,shimmedLauncherPath.1⟩ launch.meant
  | .attachMPIR launcherPath launcherPid => .attachMPIR launcherPath.1 launcherPid
  | .readStringMPIR mpirId name => .readStringMPIR mpirId name.1
  | .releaseMPIR mpirId => .releaseMPIR mpirId
  | .waitMPIR mpirId => .waitMPIR mpirId
  | .terminateMPIR mpirId => .terminateMPIR mpirId
  | .registerApp appPid => .registerApp appPid
  | .registerUtil appId utilPid => .registerUtil appId utilPid
  | .registerUtilWithSigkill appId utilPid => .registerUtilWithSigkill appId utilPid
  | .deregisterApp appId => .deregisterApp appId
  | .releaseApp appId => .releaseApp appId
  | .checkApp appId => .checkApp appId
  | .shutdown => .shutdown

def Request.Framed : Request → Prop
  | .forkExecvpApp launch => launch.Framed
  | .forkExecvpUtil _ _ launch => launch.Framed
  | .launchMPIR launch => launch.Framed
  | .launchMPIRShim shimBinaryPath temporaryShimBinDir shimmedLauncherPath launch =>
    Legible shimBinaryPath.1 ∧ Legible temporaryShimBinDir.1 ∧ Legible shimmedLauncherPath.1 ∧ launch.Framed
  | .attachMPIR launcherPath _ => Legible launcherPath.1
  | .readStringMPIR _ name => Legible name.1
  | _ => True

theorem consumes_readCommand {request : Request} (framed : request.Framed) :
    Consumes (readCommand request.type) request.payload (.ok request.meant) := by
  have single (make : BitVec 32 → Command) (value : BitVec 32) :
      Consumes (readInt >>= fun value => pure (make value)) (writeInt value) (.ok (make value)) :=
    consumes_map (consumes_readInt value) make
  have pair (make : BitVec 32 → BitVec 32 → Command) (one two : BitVec 32) :
      Consumes (readInt >>= fun one => readInt >>= fun two => pure (make one two)) (writeInt one ++ writeInt two)
        (.ok (make one two)) :=
    consumes_bind (consumes_readInt one) (single (make one) two)
  cases request with
  | forkExecvpApp launch => exact consumes_map (consumes_readLaunchData framed) Command.forkExecvpApp
  | forkExecvpUtil appId runMode launch =>
    refine consumes_bind (consumes_readInt appId) (consumes_bind (consumes_readInt runMode.code) ?_)
    exact consumes_map (consumes_readLaunchData framed) (Command.forkExecvpUtil appId runMode.code)
  | launchMPIR launch => exact consumes_map (consumes_readLaunchData framed) Command.launchMPIR
  | launchMPIRShim shimBinaryPath temporaryShimBinDir shimmedLauncherPath launch =>
    obtain ⟨one,two,three,framed⟩ := framed
    refine consumes_bind (consumes_receiveString _ shimBinaryPath one) ?_
    refine consumes_bind (consumes_receiveString _ temporaryShimBinDir two) ?_
    refine consumes_bind (consumes_receiveString _ shimmedLauncherPath three) ?_
    exact consumes_map (consumes_readLaunchData framed) (Command.launchMPIRShim ⟨_,_,_⟩)
  | attachMPIR launcherPath launcherPid =>
    exact consumes_bind (consumes_receiveString _ launcherPath framed) (single (Command.attachMPIR launcherPath.1) launcherPid)
  | readStringMPIR mpirId name =>
    exact consumes_bind (consumes_readInt mpirId) (consumes_last (consumes_receiveString _ name framed) consumes_pure)
  | releaseMPIR mpirId => exact single Command.releaseMPIR mpirId
  | waitMPIR mpirId => exact single Command.waitMPIR mpirId
  | terminateMPIR mpirId => exact single Command.terminateMPIR mpirId
  | registerApp appPid => exact single registerApp appPid
  | registerUtil appId utilPid => exact pair registerUtil appId utilPid
  | registerUtilWithSigkill appId utilPid => exact pair registerUtilWithSigkill appId utilPid
  | deregisterApp appId => exact single deregisterApp appId
  | releaseApp appId => exact single releaseApp appId
  | checkApp appId => exact single checkApp appId
  | shutdown => exact consumes_pure

def Request.served (request : Request) (pad : Padding) (perform : Operations) : Served :=
  let outcome := perform.run request.type request.meant
  ⟨some request.meant,threw outcome,respond pad request.type.family outcome,decide (request.type ≠ .Shutdown)⟩

theorem consumes_handle {request : Request} (framed : request.Framed) :
    Consumes (handle pad perform request.type) request.payload (.ok (request.served pad perform)) := by
  intro s rest whole
  obtain ⟨s',understood,left⟩ := consumes_readCommand framed s rest whole
  exact ⟨s',by rw [handle,outcome_ok understood]; rfl,left⟩

theorem consumes_code {type : ReqType} : Consumes readLong (plain (little 8 type.code)) (.ok (BitVec.ofNat 64 type.code)) := by
  have small : (BitVec.ofNat 64 type.code).toNat = type.code := by cases type <;> rfl
  have whole := consumes_readLong (BitVec.ofNat 64 type.code)
  rwa [small] at whole

theorem serve_handle (pad : Padding) (perform : Operations) (type : ReqType) (whole : s.flatten = plain (little 8 type.code) ++ rest) :
    ∃ s', serve pad perform s = handle pad perform type s' ∧ s'.flatten = rest := by
  obtain ⟨s',code,left⟩ := consumes_code s rest whole
  have known : ReqType.ofCode (BitVec.ofNat 64 type.code).toNat = some type := by cases type <;> rfl
  refine ⟨s',?_,left⟩
  rw [serve,outcome_ok code]
  simp only [known]

theorem consumes_serve (pad : Padding) (perform : Operations) (request : Request) (framed : request.Framed) :
    Consumes (serve pad perform) request.cells (.ok (request.served pad perform)) := by
  intro s rest whole
  obtain ⟨s',same,left⟩ := serve_handle pad perform request.type whole
  rw [same]
  exact consumes_handle framed s' rest left

end CommonTools.FeDaemon
