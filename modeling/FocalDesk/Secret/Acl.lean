import FocalDesk.Library.BTreeMap
import FocalDesk.Library.Wildcard
import FocalDesk.Text
import Mathlib.Logic.Relation

/-! Access control of the native secret broker, and the reload of its file. -/
namespace FocalDesk
open Library List

structure Grant where
  allow : List String
  allowWrite : Option (List String)

structure AclConfig where
  grants : BTreeMap String Grant

/-- No config file grants nothing. -/
def AclConfig.default : AclConfig := { grants := ∅ }

/-! Globs. -/

/-- Where the two cursors of `glob_match` are, the last star, and where it is retried. -/
structure GlobState where
  p : ℕ
  v : ℕ
  star : Option ℕ
  retry : ℕ
  retry_le : retry ≤ v

/-- `b'*'` -/
def globStar : UInt8 := 42

/-- The loop of `glob_match`: a star matches as little as the rest lets it. -/
def globLoop (pattern value : List UInt8) (state : GlobState) : Bool :=
  if _hv : state.v < value.length then
    if _hstar : pattern[state.p]? = some globStar then
      globLoop pattern value
        { p := state.p + 1, v := state.v, star := some state.p, retry := state.v
          retry_le := le_rfl }
    else if _hsame : pattern[state.p]? = some value[state.v] then
      globLoop pattern value
        { state with p := state.p + 1, v := state.v + 1, retry_le := state.retry_le.trans (by simp) }
    else
      match state.star with
      | some star =>
        globLoop pattern value
          { p := star + 1, v := state.retry + 1, star := some star, retry := state.retry + 1
            retry_le := le_rfl }
      | none => false
  else (pattern.drop state.p).all (· == globStar)
termination_by (value.length - state.retry, pattern.length - state.p)
decreasing_by
  · obtain ⟨hp, -⟩ := List.getElem?_eq_some_iff.mp _hstar
    have := state.retry_le
    simp only [Prod.lex_def]
    omega
  · obtain ⟨hp, -⟩ := List.getElem?_eq_some_iff.mp _hsame
    apply Prod.Lex.right
    exact Nat.sub_lt_sub_left hp (Nat.lt_succ_self _)
  · have := state.retry_le
    simp only [Prod.lex_def]
    omega

def globMatch (pattern s : String) : Bool :=
  globLoop pattern.toUTF8.data.toList s.toUTF8.data.toList
    { p := 0, v := 0, star := none, retry := 0, retry_le := le_rfl }

/-- One round of the loop that does not end it. -/
inductive GlobRound (pattern value : List UInt8) : GlobState → GlobState → Prop
  | star {state} (hv : state.v < value.length) (hstar : pattern[state.p]? = some globStar) :
    GlobRound pattern value state
      { p := state.p + 1, v := state.v, star := some state.p, retry := state.v
        retry_le := le_rfl }
  | letter {state} (hv : state.v < value.length) (hstar : pattern[state.p]? ≠ some globStar)
    (hsame : pattern[state.p]? = some value[state.v]) :
    GlobRound pattern value state
      { state with p := state.p + 1, v := state.v + 1, retry_le := state.retry_le.trans (Nat.le_succ _) }
  | retry {state star} (hv : state.v < value.length) (hstar : pattern[state.p]? ≠ some globStar)
    (hother : pattern[state.p]? ≠ some value[state.v]) (hlast : state.star = some star) :
    GlobRound pattern value state
      { p := star + 1, v := state.retry + 1, star := some star, retry := state.retry + 1
        retry_le := le_rfl }

/-- Between the last star and the cursor stands the word that was read since `retry`. -/
structure GlobState.Sound (pattern value : List UInt8) (state : GlobState) : Prop where
  p_le : state.p ≤ pattern.length
  v_le : state.v ≤ value.length
  since : ∀ k, state.star = some k → k < pattern.length ∧ ∃ word, (∀ a ∈ word, a ≠ globStar) ∧
    pattern.drop (k + 1) = word ++ pattern.drop state.p ∧
    value.drop state.retry = word ++ value.drop state.v ∧ state.v = state.retry + word.length

/-- The rest matches at the cursors, or with a longer run for the last star. -/
def GlobState.Matches (pattern value : List UInt8) (state : GlobState) : Prop :=
  Expands globStar (pattern.drop state.p) (value.drop state.v) ∨
    ∃ k, state.star = some k ∧ ∃ r, state.retry < r ∧
      Expands globStar (pattern.drop (k + 1)) (value.drop r)

section Glob
variable {pat v : List UInt8} {st next : GlobState}

theorem GlobRound.sound (h : GlobRound pat v st next) (hs : st.Sound pat v)
    : next.Sound pat v := by
  cases h with
  | star hv hst =>
    obtain ⟨hp, -⟩ := List.getElem?_eq_some_iff.mp hst
    refine ⟨hp, hs.v_le, ?_⟩
    rintro k ⟨⟩
    exact ⟨hp, [], by simp, rfl, rfl, rfl⟩
  | letter hv hst hsa =>
    obtain ⟨hp, hb⟩ := List.getElem?_eq_some_iff.mp hsa
    refine ⟨hp, hv, fun k hk => ?_⟩
    obtain ⟨hlt, w, hw, hpa, hva, hle⟩ := hs.since k hk
    refine ⟨hlt, w ++ [v[st.v]], ?_, ?_, ?_, ?_⟩
    · rintro a ha rfl
      obtain hm | hm := List.mem_append.mp ha
      · exact hw _ hm rfl
      · rw [List.mem_singleton.mp hm] at hst
        exact hst hsa
    · rw [hpa, List.drop_eq_getElem_cons hp, hb]
      simp
    · rw [hva, List.drop_eq_getElem_cons hv]
      simp
    · simp only [List.length_append, List.length_singleton]
      omega
  | retry hv hst ho hl =>
    have hr := st.retry_le
    obtain ⟨hlt, -⟩ := hs.since _ hl
    refine ⟨hlt, by simp only; omega, ?_⟩
    rintro k ⟨⟩
    exact ⟨hlt, [], by simp, rfl, rfl, rfl⟩

theorem GlobRound.loop_eq (h : GlobRound pat v st next) :
    globLoop pat v st = globLoop pat v next := by
  cases h with
  | star hv hs => rw [globLoop, dif_pos hv, dif_pos hs]
  | letter hv hs hsa => rw [globLoop, dif_pos hv, dif_neg hs, dif_pos hsa]
  | retry hv hs ho hl =>
    rw [globLoop, dif_pos hv, dif_neg hs, dif_neg ho]
    simp only [hl]

/-- A star that comes after the last one makes a longer run for the last one needless. -/
theorem GlobState.Sound.matches_at_star (hs : st.Sound pat v) (hst : pat[st.p]? = some globStar)
    : st.Matches pat v ↔
      Expands globStar (pat.drop st.p) (v.drop st.v) := by
  refine ⟨?_, .inl⟩
  rintro (h | ⟨k, hk, r, hr, h⟩)
  · exact h
  obtain ⟨-, w, hw, hpa, hv, hl⟩ := hs.since k hk
  obtain ⟨hp, hb⟩ := List.getElem?_eq_some_iff.mp hst
  rw [hpa, expands_word hw] at h
  obtain ⟨rest, hre, he⟩ := h
  have hd : rest = (v.drop st.v).drop (r + w.length - st.v) := by
    rw [List.drop_drop, show st.v + (r + w.length - st.v) = r + w.length by omega,
      ← List.drop_drop, hre, List.drop_left]
  rw [List.drop_eq_getElem_cons hp, hb] at he ⊢
  rw [hd] at he
  exact he.of_drop

theorem not_expands_of_mismatch (hv : st.v < v.length) (hs : pat[st.p]? ≠ some globStar)
    (ho : pat[st.p]? ≠ some v[st.v]) :
    ¬ Expands globStar (pat.drop st.p) (v.drop st.v) := by
  rw [drop_eq_getElem_cons hv]
  obtain hp | hp := lt_or_ge st.p pat.length
  · rw [getElem?_eq_getElem hp] at hs ho
    rw [drop_eq_getElem_cons hp, expands_letter fun he => hs (congrArg some he)]
    rintro ⟨rest, hc, -⟩
    obtain ⟨hh, -⟩ := List.cons.inj hc
    exact ho (congrArg some hh.symm)
  · rw [drop_eq_nil_of_le hp, expands_nil]
    exact cons_ne_nil _ _

theorem GlobRound.matches_iff (h : GlobRound pat v st next) (hs : st.Sound pat v) :
    st.Matches pat v ↔ next.Matches pat v := by
  cases h with
  | star hv hst =>
    obtain ⟨hp, hb⟩ := List.getElem?_eq_some_iff.mp hst
    rw [hs.matches_at_star hst, List.drop_eq_getElem_cons hp, hb, expands_star]
    constructor
    · rintro ⟨n, hn⟩
      rw [List.drop_drop] at hn
      obtain rfl | hpos := Nat.eq_zero_or_pos n
      · exact .inl hn
      · exact .inr ⟨_, rfl, _, by simp only; omega, hn⟩
    · rintro (hno | ⟨k, ⟨⟩, r, hr, hl⟩)
      · exact ⟨0, hno⟩
      · refine ⟨r - st.v, ?_⟩
        rwa [List.drop_drop, Nat.add_sub_cancel' (le_of_lt hr)]
  | letter hv hst hsa =>
    obtain ⟨hp, hb⟩ := List.getElem?_eq_some_iff.mp hsa
    have hne : pat[st.p] ≠ globStar := fun he =>
      hst (List.getElem?_eq_some_iff.mpr ⟨hp, he⟩)
    refine or_congr ?_ Iff.rfl
    rw [List.drop_eq_getElem_cons hp, expands_letter hne, List.drop_eq_getElem_cons hv, hb]
    constructor
    · rintro ⟨rest, hc, h⟩
      obtain ⟨-, rfl⟩ := List.cons.inj hc
      exact h
    · exact fun h => ⟨_, rfl, h⟩
  | retry hv hst ho hla =>
    have hno := not_expands_of_mismatch hv hst ho
    constructor
    · rintro (h | ⟨k, hk, r, hr, hl⟩)
      · exact absurd h hno
      · obtain rfl := Option.some.inj (hla.symm.trans hk)
        obtain rfl | hlt := Nat.eq_or_lt_of_le (Nat.succ_le_of_lt hr)
        · exact .inl hl
        · exact .inr ⟨_, rfl, r, hlt, hl⟩
    · rintro (hnx | ⟨k, ⟨⟩, r, hr, hl⟩)
      · exact .inr ⟨_, hla, _, Nat.lt_succ_self _, hnx⟩
      · exact .inr ⟨_, hla, r, by simp only at hr; omega, hl⟩

/-- Past the value's end only stars may be left. -/
theorem GlobState.Sound.matches_at_end (hs : st.Sound pat v) (hv : ¬ st.v < v.length)
    : st.Matches pat v ↔ (pat.drop st.p).all (· == globStar) := by
  have hen : v.drop st.v = [] := drop_eq_nil_of_le (not_lt.mp hv)
  have hst : ∀ rest : List UInt8,
      Expands globStar rest [] ↔ rest.all (· == globStar) := by
    intro rest
    induction rest with
    | nil => simp [expands_nil]
    | cons a rest ih =>
      by_cases ha : a = globStar
      · simp [ha, expands_star, ih]
      · simp [ha, expands_letter ha]
  rw [← hst, GlobState.Matches, hen]
  refine or_iff_left_of_imp ?_
  rintro ⟨k, hk, r, hr, h⟩
  obtain ⟨-, w, hw, hp, hva, hl⟩ := hs.since k hk
  rw [hp, expands_word hw] at h
  obtain ⟨rest, hre, he⟩ := h
  -- What a longer run leaves is shorter than the word, unless nothing was left.
  have hsh := congrArg List.length hre
  have hra := congrArg List.length hva
  simp only [hen, length_drop, length_append, length_nil] at hsh hra
  obtain rfl : rest = [] := eq_nil_of_length_eq_zero (by omega)
  exact he

theorem globLoop_iff (hs : st.Sound pat v) :
    globLoop pat v st ↔ st.Matches pat v := by
  induction st using globLoop.induct pat v with
  | case1 st hv hst ih =>
    have hr := GlobRound.star hv hst
    rw [hr.loop_eq, ih (hr.sound hs), hr.matches_iff hs]
  | case2 st hv hst hsa ih =>
    have hr := GlobRound.letter hv hst hsa
    rw [hr.loop_eq, ih (hr.sound hs), hr.matches_iff hs]
  | case3 st hv hst ho star hl ih =>
    have hr := GlobRound.retry hv hst ho hl
    rw [hr.loop_eq, ih (hr.sound hs), hr.matches_iff hs]
  | case4 st hv hst ho hl =>
    have hn := not_expands_of_mismatch hv hst ho
    rw [globLoop, dif_pos hv, dif_neg hst, dif_neg ho]
    simp [GlobState.Matches, hn, hl]
  | case5 st hv =>
    rw [globLoop, dif_neg hv, hs.matches_at_end hv]

end Glob

/-- Where `glob_match` starts. -/
def GlobState.start : GlobState := { p := 0, v := 0, star := none, retry := 0, retry_le := le_rfl }

theorem GlobState.sound_start (pattern value : List UInt8) : start.Sound pattern value :=
  ⟨Nat.zero_le _, Nat.zero_le _, by simp [start]⟩

theorem globMatch_iff (pattern s : String) : globMatch pattern s ↔
    Expands globStar pattern.toUTF8.data.toList s.toUTF8.data.toList := by
  refine (globLoop_iff (GlobState.sound_start _ _)).trans ?_
  simp [GlobState.Matches, GlobState.start]

/-- A value matches when each star of the pattern can be replaced by some bytes so that the value
comes out; on the way the cursors and the last star stay inside the pattern and the value. -/
theorem glob_match_expands (pattern s : String) :
    (globMatch pattern s = true ↔
      Expands globStar pattern.toUTF8.data.toList s.toUTF8.data.toList) ∧
    ∀ state, Relation.ReflTransGen (GlobRound pattern.toUTF8.data.toList s.toUTF8.data.toList)
        GlobState.start state →
      state.p ≤ pattern.toUTF8.data.toList.length ∧ state.v ≤ s.toUTF8.data.toList.length ∧
      (∀ star, state.star = some star → star < pattern.toUTF8.data.toList.length) ∧
      globLoop pattern.toUTF8.data.toList s.toUTF8.data.toList state = globMatch pattern s := by
  refine ⟨globMatch_iff pattern s, fun state hru => ?_⟩
  have hr : state.Sound pattern.toUTF8.data.toList s.toUTF8.data.toList ∧
      globLoop pattern.toUTF8.data.toList s.toUTF8.data.toList state = globMatch pattern s := by
    induction hru with
    | refl => exact ⟨GlobState.sound_start _ _, rfl⟩
    | tail _ hro ih => exact ⟨hro.sound ih.1, hro.loop_eq.symm.trans ih.2⟩
  obtain ⟨hs, hl⟩ := hr
  exact ⟨hs.p_le, hs.v_le, fun star hst => (hs.since star hst).1, hl⟩

namespace AclConfig

/-- `Acl::check` -/
def check (config : AclConfig) (identity key : String) (write : Bool) : Bool :=
  match config.grants[identity]? with
  | none => false
  | some grant =>
    let readOk := grant.allow.any fun pattern => globMatch pattern key
    if write then
      match grant.allowWrite with
      | some patterns => patterns.any fun pattern => globMatch pattern key
      | none => readOk
    else readOk

/-- Two configurations that decide every request alike. -/
def AnswersAs (config other : AclConfig) : Prop :=
  ∀ identity key write, config.check identity key write = other.check identity key write

theorem AnswersAs.refl (cfg : AclConfig) : cfg.AnswersAs cfg := fun _ _ _ => rfl

end AclConfig

/-- A version of the file: its modification time when the file system tells one, and its text when
it can be read. A missing file has neither. -/
structure AclFile where
  mtime : Option ℕ
  content : Option String

structure Acl where
  loaded : AclConfig
  mtime : Option ℕ

/-- What a version of the file grants; `parse` is the TOML reader. -/
def AclFile.config (parse : String → Option AclConfig) (file : AclFile) : AclConfig :=
  match file.content with
  | some text =>
    match parse text with
    | some config => config
    | none => .default
  | none => .default

namespace Acl
variable (parse : String → Option AclConfig)

def reloadIfChanged (acl : Acl) (file : AclFile) : Acl :=
  if file.mtime = acl.mtime ∧ acl.mtime.isSome = true then acl
  else { mtime := file.mtime, loaded := file.config parse }

def new (file : AclFile) : Acl :=
  ({ loaded := .default, mtime := none } : Acl).reloadIfChanged parse file

/-- The control after it was opened on one version of its file and reloaded on others. -/
def reloaded (first : AclFile) (files : List AclFile) : Acl :=
  files.foldl (fun acl file => acl.reloadIfChanged parse file) (new parse first)

end Acl

/-! Histories of the file. -/

/-- The version that is there at the end of a history. -/
def currentFile (first : AclFile) (files : List AclFile) : AclFile := files.getLastD first

/-- The version that opened the last stretch of versions with the same known modification time. -/
def stretchFile (first : AclFile) : List AclFile → AclFile
  | [] => first
  | file :: files =>
    if file.mtime = first.mtime ∧ first.mtime.isSome = true then stretchFile first files
    else stretchFile file files

/-- Every change of the content comes with another modification time. -/
def TimedChanges (first : AclFile) (files : List AclFile) : Prop :=
  (first :: files).IsChain fun earlier later =>
    later.mtime = earlier.mtime → earlier.mtime.isSome = true → later.content = earlier.content

variable {parse : String → Option AclConfig} {first file : AclFile} {files : List AclFile}

/-- The control holds what the first version of the stretch grants. -/
theorem reloaded_eq (first : AclFile) (files : List AclFile) :
    Acl.reloaded parse first files =
      { loaded := (stretchFile first files).config parse
        mtime := (stretchFile first files).mtime } := by
  have hr (first : AclFile) (files : List AclFile) :
      files.foldl (fun (acl : Acl) file => acl.reloadIfChanged parse file)
        { loaded := first.config parse, mtime := first.mtime } =
      { loaded := (stretchFile first files).config parse
        mtime := (stretchFile first files).mtime } := by
    induction files generalizing first with
    | nil => rfl
    | cons file files ih =>
      simp only [foldl_cons, Acl.reloadIfChanged, stretchFile]
      split
      · exact ih first
      · exact ih file
  have hn : Acl.new parse first = { loaded := first.config parse, mtime := first.mtime } := by
    simp [Acl.new, Acl.reloadIfChanged]
  rw [Acl.reloaded, hn]
  exact hr first files

theorem config_congr (h : file.content = first.content) :
    file.config parse = first.config parse := by
  rw [AclFile.config, AclFile.config, h]

/-- Within a stretch the content stays what it was. -/
theorem stretchFile_content (h : TimedChanges first files) :
    (stretchFile first files).content = (currentFile first files).content := by
  induction files generalizing first with
  | nil => rfl
  | cons file files ih =>
    obtain ⟨hfi, hf⟩ := isChain_cons_cons.mp h
    have hcu : currentFile first (file :: files) = currentFile file files := by
      rw [currentFile, currentFile, getLastD_cons]
    rw [hcu, stretchFile]
    split
    case isFalse => exact ih hf
    case isTrue hs =>
      -- The stretch goes on, so its first version may stand in for the next one.
      have hc := hfi hs.1 hs.2
      cases files with
      | nil => exact hc.symm
      | cons next files =>
        obtain ⟨hn, hr⟩ := isChain_cons_cons.mp hf
        have hch : TimedChanges first (next :: files) := by
          refine isChain_cons_cons.mpr ⟨?_, hr⟩
          intro hm hk
          rw [hn (hm.trans hs.1.symm) (hs.1 ▸ hk), hc]
        have hl : currentFile first (next :: files) = currentFile file (next :: files) := by
          rw [currentFile, currentFile, getLastD_cons, getLastD_cons]
        rw [← hl]
        exact ih hch

/-- After a reload the control decides every request as the current content of the file says
exactly when the version that opened the stretch of its modification time decides them so. In
every history whose changes are timed it does. -/
theorem acl_current_iff (parse : String → Option AclConfig) (first : AclFile) (files : List AclFile)
    :
    ((Acl.reloaded parse first files).loaded.AnswersAs ((currentFile first files).config parse) ↔
      ((stretchFile first files).config parse).AnswersAs ((currentFile first files).config parse)) ∧
    (TimedChanges first files →
      (Acl.reloaded parse first files).loaded.AnswersAs
        ((currentFile first files).config parse)) := by
  rw [reloaded_eq]
  refine ⟨Iff.rfl, ?_⟩
  intro ht
  rw [config_congr (stretchFile_content ht)]
  exact AclConfig.AnswersAs.refl _

/-- One grant, and none. -/
def grantingText : String := "[grants.\"unit:app\"]\nallow = [\"*\"]\n"

def sampleParse (text : String) : Option AclConfig :=
  if text = grantingText then
    some { grants := (∅ : BTreeMap String Grant).insert "unit:app" ⟨["*"], none⟩ }
  else if text = "" then some .default
  else none

theorem acl_current_iff_sample :
    (Acl.reloaded sampleParse ⟨some 5, some grantingText⟩ [⟨some 6, some ""⟩]).loaded.AnswersAs
      (AclFile.config sampleParse ⟨some 6, some ""⟩) := by
  refine (acl_current_iff sampleParse ⟨some 5, some grantingText⟩ [⟨some 6, some ""⟩]).2 ?_
  exact isChain_cons_cons.mpr ⟨by simp, List.IsChain.singleton _⟩

/-- A grant that was revoked within the resolution of the modification time is still honoured. -/
theorem revoked_grant_honoured :
    ¬ ∀ (parse : String → Option AclConfig) (first : AclFile) (files : List AclFile),
      (Acl.reloaded parse first files).loaded.AnswersAs
        ((currentFile first files).config parse) := by
  intro h
  have hgl : globMatch "*" "k" = true :=
    (globMatch_iff "*" "k").2 (expands_star.mpr ⟨1, expands_nil.mpr rfl⟩)
  have hp : sampleParse "" = some .default := rfl
  have hg : sampleParse grantingText =
      some { grants := (∅ : BTreeMap String Grant).insert "unit:app" ⟨["*"], none⟩ } := if_pos rfl
  have hc := h sampleParse ⟨some 5, some grantingText⟩ [⟨some 5, some ""⟩] "unit:app" "k" false
  simp [reloaded_eq, stretchFile, currentFile, AclFile.config, hp, hg, AclConfig.check,
    hgl, AclConfig.default] at hc

end FocalDesk
