import Mathlib.Data.List.DropRight
import CommonTools.Library.Texts
import CommonTools.FeDaemon.Wire

namespace CommonTools.Interface
open Texts FeDaemon List

def ldPreload : Bytes := ascii "LD_PRELOAD"

def invalidSetting (entry : Bytes) : Bytes := ascii "Invalid environment variable set: '" ++ entry ++ ascii "'"

-- One turn of the loop: the entries so far, and whether LD_PRELOAD was among them. What follows
-- the last equals sign is taken for the value.
def fixEntry (globalLdPreload : Bytes) (fixed : List Bytes × Bool) (entry : Bytes) : Except Bytes (List Bytes × Bool) :=
  if ldPreload.isPrefixOf entry then
    if entry.contains 61 then
      .ok (fixed.1 ++ [ldPreload ++ 61 :: (globalLdPreload ++ 58 :: entry.rtakeWhile (· ≠ 61))],true)
    else .error (invalidSetting entry)
  else .ok (fixed.1 ++ [entry],fixed.2)

def fixLaunchEnvironment (globalLdPreload : Bytes) (envList : Option (List Bytes)) : Except Bytes (List Bytes) :=
  if globalLdPreload ≠ [] then
    match envList with
    | some entries => do
      let (fixedEnvVars,ldPreloadAdded) ← entries.foldlM (fixEntry globalLdPreload) ([],false)
      return if ldPreloadAdded then fixedEnvVars else fixedEnvVars ++ [ldPreload ++ 61 :: globalLdPreload]
    | none => .ok [ldPreload ++ 61 :: globalLdPreload]
  else .ok (envList.getD [])

structure EnvEntry where
  name : Bytes
  value : Bytes
  named : 61 ∉ name

def EnvEntry.text (entry : EnvEntry) : Bytes := entry.name ++ 61 :: entry.value

def EnvEntry.merged (globalLdPreload : Bytes) (entry : EnvEntry) : Bytes :=
  if entry.name = ldPreload then ldPreload ++ 61 :: (globalLdPreload ++ 58 :: entry.value) else entry.text

def mergedList (globalLdPreload : Bytes) (entries : List EnvEntry) : List Bytes :=
  entries.map (EnvEntry.merged globalLdPreload) ++
    if entries.any fun entry => entry.name == ldPreload then [] else [ldPreload ++ 61 :: globalLdPreload]

def EnvEntry.Plain (entry : EnvEntry) : Prop :=
  (entry.name = ldPreload → 61 ∉ entry.value) ∧ (ldPreload <+: entry.name → entry.name = ldPreload)

section Steps
variable (globalLdPreload : Bytes) (entry : EnvEntry)

theorem ldPreload_name : 61 ∉ ldPreload := by decide

theorem begins_name : ldPreload.isPrefixOf entry.text = true ↔ ldPreload <+: entry.name := by
  rw [List.isPrefixOf_iff_prefix]
  constructor
  · rintro ⟨rest,whole⟩
    rcases append_eq_append_iff.mp whole with ⟨more,own,_⟩ | ⟨more,own,split⟩
    · exact ⟨more,own.symm⟩
    · cases more with
      | nil =>
        rw [append_nil] at own
        exact own ▸ prefix_refl _
      | cons b more =>
        have equals : b = 61 := (List.cons.inj split).1.symm
        exact absurd (own ▸ mem_append_right _ (equals ▸ mem_cons_self)) ldPreload_name
  · exact fun begins => begins.trans (prefix_append _ _)

theorem value_last : entry.text.rtakeWhile (· ≠ 61) = entry.value.rtakeWhile (· ≠ 61) := by
  have parts : entry.text.reverse = entry.value.reverse ++ 61 :: entry.name.reverse := by simp [EnvEntry.text]
  have stops : (61 :: entry.name.reverse).takeWhile (· ≠ 61) = [] := takeWhile_cons_of_neg (by simp)
  rw [rtakeWhile,rtakeWhile,parts,takeWhile_append,stops,append_nil]
  split
  · rename_i whole
    rw [(List.takeWhile_prefix _).eq_of_length whole]
  · rfl

theorem value_whole : entry.value.rtakeWhile (· ≠ 61) = entry.value ↔ 61 ∉ entry.value := by
  rw [rtakeWhile_eq_self_iff]
  constructor
  · intro all inside
    simpa using all 61 inside
  · intro free b inside
    simpa using fun same : b = 61 => free (same ▸ inside)

def EnvEntry.fixed : Bytes :=
  if ldPreload.isPrefixOf entry.text then ldPreload ++ 61 :: (globalLdPreload ++ 58 :: entry.value.rtakeWhile (· ≠ 61)) else entry.text

theorem fixEntry_text : fixEntry globalLdPreload fixed entry.text =
    .ok (fixed.1 ++ [entry.fixed globalLdPreload],fixed.2 || ldPreload.isPrefixOf entry.text) := by
  have equals : entry.text.contains 61 = true := by simp [EnvEntry.text]
  unfold fixEntry EnvEntry.fixed
  rw [value_last]
  rw [equals]
  cases ldPreload.isPrefixOf entry.text <;> simp

theorem fixEntries_texts {entries : List EnvEntry} : (entries.map EnvEntry.text).foldlM (fixEntry globalLdPreload) fixed =
      .ok (fixed.1 ++ entries.map (EnvEntry.fixed globalLdPreload),
        fixed.2 || entries.any fun entry => ldPreload.isPrefixOf entry.text) := by
  induction entries generalizing fixed with
  | nil => simp; rfl
  | cons entry entries ih =>
    rw [map_cons,foldlM_cons,fixEntry_text]
    change (entries.map EnvEntry.text).foldlM (fixEntry globalLdPreload) _ = _
    rw [ih]
    simp [Bool.or_assoc]

theorem fixed_merged : entry.fixed globalLdPreload = entry.merged globalLdPreload ↔ entry.Plain := by
  unfold EnvEntry.fixed EnvEntry.merged EnvEntry.Plain
  by_cases own : entry.name = ldPreload
  · have begins : ldPreload.isPrefixOf entry.text = true := (begins_name entry).mpr (own ▸ prefix_refl _)
    rw [if_pos begins,if_pos own,append_cancel_left_eq,cons_inj_right,append_cancel_left_eq,cons_inj_right,
      value_whole]
    simp [own]
  · by_cases begins : ldPreload.isPrefixOf entry.text = true
    · rw [if_pos begins,if_neg own]
      refine iff_of_false (fun same => ?_) (fun plain => own (plain.2 ((begins_name entry).mp begins)))
      exact own (append_sep_inj ldPreload_name entry.named same).1.symm
    · rw [if_neg begins]
      have other : ¬ ldPreload <+: entry.name := fun wrong => begins ((begins_name entry).mpr wrong)
      simp [own,other]

end Steps

-- The global value is merged exactly if no other name begins with LD_PRELOAD, and no value of it has an equals sign.
theorem ld_preload_merged (globalLdPreload : Bytes) (set : globalLdPreload ≠ []) (envList : Option (List EnvEntry)) :
    fixLaunchEnvironment globalLdPreload (envList.map (·.map EnvEntry.text)) = .ok (mergedList globalLdPreload (envList.getD [])) ↔
      ∀ entry ∈ envList.getD [], entry.Plain := by
  cases envList with
  | none => simp [fixLaunchEnvironment,set,mergedList]
  | some entries =>
    have fixed : fixLaunchEnvironment globalLdPreload (some (entries.map EnvEntry.text)) =
        .ok (entries.map (EnvEntry.fixed globalLdPreload) ++
          if entries.any fun entry => ldPreload.isPrefixOf entry.text then [] else [ldPreload ++ 61 :: globalLdPreload]) := by
      rw [fixLaunchEnvironment,if_pos set]
      dsimp only
      rw [fixEntries_texts]
      cases entries.any fun entry => ldPreload.isPrefixOf entry.text <;> simp [bind,Except.bind,pure,Except.pure]
    rw [Option.map_some,fixed,Except.ok.injEq,Option.getD_some,mergedList]
    constructor
    · intro same entry inside
      have maps := (append_inj same (by simp)).1
      exact (fixed_merged globalLdPreload entry).mp (map_inj_left.mp maps entry inside)
    · intro plain
      have maps : entries.map (EnvEntry.fixed globalLdPreload) = entries.map (EnvEntry.merged globalLdPreload) :=
        map_congr_left fun entry inside => (fixed_merged globalLdPreload entry).mpr (plain entry inside)
      have named : entries.any (fun entry => ldPreload.isPrefixOf entry.text) = entries.any fun entry => entry.name == ldPreload := by
        rw [Bool.eq_iff_iff,any_eq_true,any_eq_true]
        constructor
        · rintro ⟨entry,inside,begins⟩
          exact ⟨entry,inside,by simpa using (plain entry inside).2 ((begins_name entry).mp begins)⟩
        · rintro ⟨entry,inside,own⟩
          have same : entry.name = ldPreload := by simpa using own
          exact ⟨entry,inside,(begins_name entry).mpr (same ▸ prefix_refl _)⟩
      rw [maps,named]

def debugSetting : EnvEntry := ⟨ascii "LD_PRELOAD_DEBUG",ascii "1",by decide⟩

def optionSetting : EnvEntry := ⟨ldPreload,ascii "/opt/v=2/a.so",ldPreload_name⟩

def plainSetting : EnvEntry := ⟨ldPreload,ascii "a.so",ldPreload_name⟩

theorem ld_preload_merged_plain : fixLaunchEnvironment (ascii "g.so") ((some [plainSetting]).map (·.map EnvEntry.text)) =
        .ok (mergedList (ascii "g.so") ((some [plainSetting]).getD [])) ↔ ∀ entry ∈ (some [plainSetting]).getD [], entry.Plain :=
  ld_preload_merged (ascii "g.so") (by decide) (some [plainSetting])

theorem other_variable_overwritten : fixLaunchEnvironment (ascii "g.so") (some [debugSetting.text]) = .ok [ascii "LD_PRELOAD=g.so:1"] ∧
    fixLaunchEnvironment (ascii "g.so") (some [optionSetting.text]) = .ok [ascii "LD_PRELOAD=g.so:2/a.so"] ∧
    mergedList (ascii "g.so") [debugSetting] = [ascii "LD_PRELOAD_DEBUG=1",ascii "LD_PRELOAD=g.so"] ∧
    mergedList (ascii "g.so") [optionSetting] = [ascii "LD_PRELOAD=g.so:/opt/v=2/a.so"] := by
  refine ⟨?_,?_,?_,?_⟩ <;> decide

end CommonTools.Interface
