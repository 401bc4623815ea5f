import CommonTools.FeDaemon.Framing

namespace CommonTools.FeDaemon
open Numerals Streams
open List hiding count

def arriving (text : Bytes) : Bytes := text.takeWhile (· ≠ 255)

theorem arriving_legible (legible : Legible text) : arriving text = text :=
  takeWhile_eq_self_iff.mpr fun _ inside => decide_eq_true fun full => legible (full ▸ inside)

def spoiled : IStream := ⟨some 255,true,false⟩

theorem written_parts (text : CStr) (illegible : ¬ Legible text.1) :
    ∃ back, writeString text = plain (arriving text.1 ++ [255]) ++ back := by
  have ends := List.head?_dropWhile_not (fun b : UInt8 => decide (b ≠ 255)) text.1
  have parts : arriving text.1 ++ text.1.dropWhile (· ≠ 255) = text.1 := takeWhile_append_dropWhile
  cases tail : text.1.dropWhile (· ≠ 255) with
  | nil =>
    rw [tail,append_nil] at parts
    refine absurd ?_ illegible
    rw [← parts]
    exact fun full => absurd (mem_takeWhile_imp full) (by decide)
  | cons b back =>
    rw [tail] at ends parts
    have full : b = 255 := by simpa using ends
    subst full
    refine ⟨plain (back ++ [0]),?_⟩
    rw [writeString,← plain_append,append_assoc,← append_assoc [255],singleton_append,← append_assoc,parts]

theorem consumes_cut (text : CStr) : Consumes (getline .fresh) (plain (arriving text.1 ++ [255]))
    (.ok (arriving text.1,⟨some 255,true,(arriving text.1).isEmpty⟩)) := by
  have clean : 0 ∉ arriving text.1 := fun zero => text.2 (takeWhile_subset _ zero)
  have legible : Legible (arriving text.1) := fun full => absurd (mem_takeWhile_imp full) (by decide)
  exact consumes_line clean legible (.inl rfl)

theorem fails_ended (ended : stream.eof = true) : Fails (receiveString message stream) [] := by
  intro s rest whole
  refine ⟨.text message,s,?_⟩
  have nothing : getline stream s = .ok ([],{stream with failed := true}) s := by
    rw [getline,ended]
    rfl
  change EStateM.bind (getline stream) _ s = _
  rw [EStateM.bind,nothing]
  rfl

theorem receiveString_cut (message : String) (text : CStr) (illegible : ¬ Legible text.1) :
    if text.1.head? = some 255 then Fails (receiveString message .fresh) (writeString text)
    else ∃ front back, writeString text = front ++ back ∧
      Consumes (receiveString message .fresh) front (.ok (arriving text.1,spoiled)) := by
  obtain ⟨back,parts⟩ := written_parts text illegible
  have line := consumes_cut text
  split
  · rename_i first
    have empty : arriving text.1 = [] := by
      cases bytes : text.1 with
      | nil => rfl
      | cons b rest =>
        rw [bytes] at first
        cases first
        rfl
    rw [parts]
    refine fails_longer ?_
    rw [empty] at line ⊢
    exact fails_bind line fails_throw
  · rename_i other
    have some : (arriving text.1).isEmpty = false := by
      cases bytes : text.1 with
      | nil => exact absurd (bytes ▸ not_mem_nil) illegible
      | cons b rest =>
        rw [bytes] at other
        have legible : b ≠ 255 := fun full => other (by rw [full]; rfl)
        have kept : arriving (b :: rest) = b :: arriving rest := takeWhile_cons_of_pos (decide_eq_true legible)
        rw [kept]
        rfl
    refine ⟨_,back,parts,?_⟩
    rw [some] at line
    exact consumes_last line consumes_pure

theorem fails_spoiled (illegible : ¬ Legible text.1) (later : ∀ got, Fails (more (got,spoiled)) []) :
    Fails (receiveString message .fresh >>= more) (writeString text) := by
  have part := receiveString_cut message text illegible
  split at part
  · exact fails_stop part
  · obtain ⟨front,back,parts,got⟩ := part
    rw [parts]
    exact fails_bind got (fails_longer (later _))

theorem fails_receiveStrings_ended (later : ∀ got, Fails (more (got,spoiled)) []) : Fails (receiveStrings count spoiled >>= more) [] := by
  cases count with
  | zero => exact later []
  | succ count => exact fails_stop (fails_stop (fails_ended rfl))

theorem fails_receiveStrings {texts : List CStr} (illegible : ∃ text ∈ texts, ¬ Legible text.1)
    (later : ∀ got, Fails (more (got,spoiled)) []) : Fails (receiveStrings texts.length .fresh >>= more) (texts.flatMap writeString) := by
  induction texts generalizing more with
  | nil =>
    obtain ⟨_,inside,_⟩ := illegible
    cases inside
  | cons text texts ih =>
    rw [length_cons,receiveStrings,bind_assoc]
    by_cases legible : Legible text.1
    · obtain ⟨other,inside,bad⟩ := illegible
      have among : other ∈ texts := (mem_cons.mp inside).resolve_left fun same => bad (same ▸ legible)
      refine fails_bind (consumes_receiveString _ text legible) ?_
      simp only [bind_assoc,pure_bind]
      exact ih ⟨other,among,bad⟩ fun got => later (text.1 :: got)
    · refine fails_longer (fails_spoiled legible fun got => ?_)
      simp only [bind_assoc,pure_bind]
      exact fails_receiveStrings_ended fun rest => later (got :: rest)

-- Texts that end a message: only the last may be cut short, and not to nothing.
def Arrives : List CStr → Prop
  | [] => True
  | [last] => last.1.head? ≠ some 255
  | text :: more :: rest => Legible text.1 ∧ Arrives (more :: rest)

theorem yields_receiveString (some : text.1.head? ≠ some 255) :
    ∃ stream, Yields (receiveString message .fresh) (writeString text) (arriving text.1,stream) := by
  by_cases legible : Legible text.1
  · rw [arriving_legible legible]
    exact ⟨.fresh,yields_consumes (consumes_receiveString message text legible)⟩
  · have part := receiveString_cut message text legible
    rw [if_neg some] at part
    obtain ⟨front,back,parts,got⟩ := part
    rw [parts]
    exact ⟨spoiled,yields_longer (yields_consumes got)⟩

theorem yields_receiveStrings (arrives : Arrives texts) : ∃ stream, Yields (receiveStrings texts.length .fresh) (texts.flatMap writeString)
      (texts.map (fun text => arriving text.1),stream) := by
  induction texts with
  | nil => exact ⟨.fresh,yields_consumes consumes_pure⟩
  | cons text texts ih =>
    cases texts with
    | nil =>
      obtain ⟨stream,got⟩ := yields_receiveString arrives
      exact ⟨stream,yields_last (yields_longer got) (yields_consumes consumes_pure)⟩
    | cons more rest =>
      obtain ⟨stream,got⟩ := ih arrives.2
      rw [map_cons,arriving_legible arrives.1]
      refine ⟨stream,yields_bind (consumes_receiveString _ text arrives.1) ?_⟩
      exact yields_last got (yields_consumes consumes_pure)

theorem fails_receiveStrings_last (lost : ¬ Arrives texts) : Fails (receiveStrings texts.length .fresh) (texts.flatMap writeString) := by
  induction texts with
  | nil => exact absurd trivial lost
  | cons text texts ih =>
    cases texts with
    | nil =>
      have full : text.1.head? = some 255 := not_not.mp lost
      have part := receiveString_cut "failed to read string" text fun legible => legible (mem_of_mem_head? full)
      rw [if_pos full] at part
      exact fails_longer (fails_stop part)
    | cons more rest =>
      by_cases legible : Legible text.1
      · exact fails_bind (consumes_receiveString _ text legible) (fails_stop (ih fun arrives => lost ⟨legible,arrives⟩))
      · exact fails_longer (fails_spoiled legible fun _ => fails_stop (fails_stop (fails_ended rfl)))

structure Launch.Readable (launch : Launch) : Prop where
  file : Legible launch.file.1
  argc : launch.argv.length < 2 ^ 31
  argv : ∀ text ∈ launch.argv, Legible text.1
  envc : (launch.env.getD []).length < 2 ^ 31
  env : Arrives (launch.env.getD [])

def Launch.arriving (launch : Launch) : List Bytes := (launch.env.getD []).map fun text => FeDaemon.arriving text.1

def Launch.received (launch : Launch) : LaunchData :=
  launch.arriving.foldl LaunchData.addEnv ⟨some launch.stdio,launch.file.1,launch.argv.map (·.1),[],[]⟩

theorem yields_readLaunchData (readable : launch.Readable) : Yields readLaunchData (writeLaunchData launch) launch.received := by
  obtain ⟨stream,entries⟩ := yields_receiveStrings readable.env
  refine yields_bind consumes_recvmsg ?_
  refine yields_bind (consumes_receiveString _ _ readable.file) ?_
  refine yields_bind consumes_receiveCount ?_
  refine yields_skip (consumes_parseCount readable.argc) ?_
  refine yields_bind (consumes_receiveStrings readable.argv) ?_
  refine yields_bind consumes_receiveCount ?_
  refine yields_skip (consumes_parseCount readable.envc) ?_
  exact yields_last entries (yields_consumes consumes_pure)

theorem fails_parseCount (large : ¬ n < 2 ^ 31) : Fails (parseCount name (decimal n)) [] := by
  rw [parseCount,stoi_digits,if_neg large]
  exact fails_throw

theorem fails_readLaunchData {launch : Launch} (unreadable : ¬ launch.Readable) : Fails readLaunchData (writeLaunchData launch) := by
  have ended {α : Type} {more : Bytes × IStream → Read α} : Fails (receiveString "failed to read string" spoiled >>= more) [] :=
    fails_stop (fails_ended rfl)
  refine fails_bind consumes_recvmsg ?_
  by_cases file : Legible launch.file.1
  · refine fails_bind (consumes_receiveString _ _ file) ?_
    refine fails_bind consumes_receiveCount ?_
    by_cases argc : launch.argv.length < 2 ^ 31
    · refine fails_skip (consumes_parseCount argc) ?_
      by_cases argv : ∀ text ∈ launch.argv, Legible text.1
      · refine fails_bind (consumes_receiveStrings argv) ?_
        refine fails_bind consumes_receiveCount ?_
        by_cases envc : (launch.env.getD []).length < 2 ^ 31
        · refine fails_skip (consumes_parseCount envc) (fails_stop (fails_receiveStrings_last ?_))
          exact fun env => unreadable ⟨file,argc,argv,envc,env⟩
        · exact fails_stop (fails_longer (fails_parseCount envc))
      · push Not at argv
        exact fails_longer (fails_receiveStrings argv fun _ => ended)
    · exact fails_stop (fails_longer (fails_parseCount argc))
  · exact fails_longer (fails_spoiled file fun _ => ended)

theorem envList_foldl {entries : List Bytes} {data : LaunchData} :
    (entries.foldl LaunchData.addEnv data).envList = data.envList ++ entries.filter (!blacklistTag.isPrefixOf ·) := by
  induction entries generalizing data with
  | nil => exact (append_nil _).symm
  | cons entry entries ih =>
    rw [foldl_cons,ih]
    cases tagged : blacklistTag.isPrefixOf entry <;> simp [LaunchData.addEnv,tagged]

theorem received_env {launch : Launch} {holds : Bytes → Prop} : (∀ entry ∈ launch.received.envList, holds entry) ↔
    ∀ entry ∈ launch.arriving, blacklistTag.isPrefixOf entry = false → holds entry := by
  rw [Launch.received,envList_foldl,nil_append]
  simp only [mem_filter,Bool.not_eq_true',and_imp]

theorem filepath_foldl {entries : List Bytes} {data : LaunchData} : (entries.foldl LaunchData.addEnv data).filepath = data.filepath := by
  induction entries generalizing data with
  | nil => rfl
  | cons entry entries ih =>
    rw [foldl_cons,ih,LaunchData.addEnv]
    split <;> rfl

end CommonTools.FeDaemon
