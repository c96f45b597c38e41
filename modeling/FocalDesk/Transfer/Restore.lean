import FocalDesk.Transfer.Records
import FocalDesk.Transfer.Undo

/-! Each step of the undo takes back what its record stands for. -/
namespace FocalDesk.Transfer
open Library Archive List Option

variable {fs fs' g out : FileSystem} {x d b p q : Path} {node : Node} {desk : Desktop} {stamp : ℕ}

/-! Renames. -/

/-- A rename of something to a free name in a folder. -/
theorem renamePath_ok (hfs : WellFormed fs) (hs : getKey x fs ≠ none) (hab : getKey d fs = none)
    (hp : getKey d.dropLast fs = some .dir) (ha : ¬ x <+: d)
    : ∃ fs', renamePath fs x d = .ok fs' ∧ Moved x d fs fs' := by
  refine ⟨moveTree x d fs, ?_, moved_moveTree hfs hs hab hp ha⟩
  obtain ⟨node, hn⟩ := ne_none_iff_exists'.mp hs
  have hne : x ≠ d := by
    rintro rfl
    exact hs hab
  simp only [renamePath, hn, hab]
  rw [if_neg (not_not.mpr hp), if_neg hne, if_neg ha]

theorem change_ok {f : FileSystem → Except IoError FileSystem} (h : f fs = .ok fs') :
    change f fs = .ok () fs' := by
  unfold change
  rw [h]

theorem renameOn_ok (hfs : WellFormed fs) (hs : getKey x fs ≠ none) (hab : getKey d fs = none)
    (hp : getKey d.dropLast fs = some .dir) (ha : ¬ x <+: d)
    : ∃ fs', renameOn true x d fs = .ok () fs' ∧ Moved x d fs fs' := by
  obtain ⟨fs', hr, hm⟩ := renamePath_ok hfs hs hab hp ha
  refine ⟨fs', ?_, hm⟩
  exact change_ok hr

/-- Everything there is is in a folder. -/
theorem parent_of_present (hfs : WellFormed fs) (hp : p ≠ []) (hpr : getKey p fs ≠ none) :
    getKey p.dropLast fs = some .dir := by
  obtain ⟨node, hn⟩ := ne_none_iff_exists'.mp hpr
  rw [← dropLast_append_getLast hp] at hn
  exact hfs _ _ node hn

theorem not_under_parent (hp : p ≠ []) : ¬ p <+: p.dropLast := by
  intro hu
  have hl := hu.length_le
  have hpo := length_pos_iff.mpr hp
  rw [length_dropLast] at hl
  omega

/-! Removals. -/

/-- Nothing is left under a path, and everything else is. -/
structure Cleared (p : Path) (fs out : FileSystem) : Prop where
  formed : WellFormed out
  lookup : ∀ q, getKey q out = if p <+: q then none else getKey q fs

theorem getKey_removeTree (p q : Path) (fs : FileSystem) :
    getKey q (removeTree p fs) = if p <+: q then none else getKey q fs := by
  induction fs with
  | nil => simp [removeTree, getKey]
  | cons e fs ih =>
    unfold removeTree at ih ⊢
    by_cases hu : p <+: e.1
    · rw [filter_cons_of_neg (by simpa using hu), ih, getKey_cons]
      by_cases hq : p <+: q
      · rw [if_pos hq, if_pos hq]
      · have hne : q ≠ e.1 := by
          rintro rfl
          exact hq hu
        rw [if_neg hq, if_neg hq, if_neg hne]
    · rw [filter_cons_of_pos (by simpa using hu), getKey_cons, getKey_cons, ih]
      by_cases hq : p <+: q
      · have hne : q ≠ e.1 := by
          rintro rfl
          exact hu hq
        rw [if_neg hne, if_pos hq, if_pos hq]
      · rw [if_neg hq, if_neg hq]

/-- What has nothing under a path is in order. -/
theorem cleared_of_lookup (hfs : WellFormed fs)
    (h : ∀ q, getKey q out = if p <+: q then none else getKey q fs) : Cleared p fs out := by
  refine ⟨?_, h⟩
  intro q name node hn
  rw [h] at hn
  by_cases hu : p <+: q ++ [name]
  · rw [if_pos hu] at hn
    cases hn
  · rw [if_neg hu] at hn
    rw [h, if_neg fun hq => hu (hq.trans (prefix_append _ _))]
    exact hfs q name node hn

theorem cleared_removeTree (hfs : WellFormed fs) : Cleared p fs (removeTree p fs) :=
  cleared_of_lookup hfs fun q => getKey_removeTree p q fs

theorem cleared_removeKey (hfs : WellFormed fs) (hn : getKey p fs = some node) (hd : node ≠ .dir)
    : Cleared p fs (removeKey p fs) := by
  apply cleared_of_lookup hfs
  intro q
  by_cases hu : p <+: q
  · rw [if_pos hu]
    obtain ⟨s, rfl⟩ := hu
    by_cases hs : s = []
    · rw [hs, append_nil, getKey_removeKey_self]
    · rw [getKey_removeKey_of_ne (by simpa using hs)]
      exact absent_below_leaf hfs hn hd hs
  · rw [if_neg hu]
    apply getKey_removeKey_of_ne
    rintro rfl
    exact hu (prefix_refl _)

theorem removePathRecursively_ok (hfs : WellFormed fs) (hp : getKey p fs ≠ none) :
    ∃ out, change (removePathRecursively p) fs = .ok () out ∧ Cleared p fs out := by
  obtain ⟨node, hn⟩ := ne_none_iff_exists'.mp hp
  unfold change removePathRecursively
  rw [hn]
  rcases node with _ | data | leads | _
  · exact ⟨_, rfl, cleared_removeTree hfs⟩
  · exact ⟨_, rfl, cleared_removeKey hfs hn nofun⟩
  · exact ⟨_, rfl, cleared_removeKey hfs hn nofun⟩
  · exact ⟨_, rfl, cleared_removeKey hfs hn nofun⟩

theorem removeDisplaced_ok (hfs : WellFormed fs) (hp : getKey p fs ≠ none) :
    ∃ out, change (removeDisplaced p) fs = .ok () out ∧ Cleared p fs out := by
  -- The two removals differ where nothing is.
  have hs : removeDisplaced p fs = removePathRecursively p fs := by
    obtain ⟨node, hn⟩ := ne_none_iff_exists'.mp hp
    unfold removeDisplaced removePathRecursively
    rw [hn]
    cases node <;> rfl
  obtain ⟨out, hr, hc⟩ := removePathRecursively_ok hfs hp
  refine ⟨out, ?_, hc⟩
  rw [← hr]
  unfold change
  rw [hs]

/-! What was created. -/

theorem present_of_exists (h : existsPath desk fs p) : getKey p fs ≠ none := by
  intro hn
  rw [existsPath, hn] at h
  cases h

/-- What was new is removed. -/
theorem Added.cleared (h : Added d g fs) (hg : WellFormed g) (hc : Cleared d fs out) :
    Same g out := by
  refine ⟨hc.formed, fun q => ?_⟩
  rw [hc.lookup]
  by_cases hd : d <+: q
  · rw [if_pos hd, absent_under hg h.absent hd]
  · rw [if_neg hd, h.within.other q hd]

theorem removeCreated_same (h : Added d g fs) (hg : WellFormed g) (he : existsPath desk fs d)
    :
    ∃ out, removeCreated desk d false fs = .ok () out ∧ Same g out := by
  obtain ⟨out, hr, hc⟩ := removePathRecursively_ok h.within.formed (present_of_exists he)
  refine ⟨out, ?_, h.cleared hg hc⟩
  apply run_bind_ok (a := fs) (t := fs) rfl
  rw [if_neg (by rw [he]; exact Bool.noConfusion), if_neg Bool.false_ne_true]
  exact hr

/-! What was moved. -/

/-- The source of a move is free again, and its folder is still there. -/
theorem Moved.source_free (h : Moved x d g fs) (hg : WellFormed g) (hx : x ≠ []) :
    getKey x fs = none ∧ getKey x.dropLast fs = some .dir ∧ ¬ d <+: x := by
  have ha : ¬ d <+: x := free_apart hg h.source h.absent
  refine ⟨?_, ?_, ha⟩
  · rw [h.other x ha, if_pos (prefix_refl x)]
  · have hp := parent_of_present hg hx h.source
    rw [h.other _ fun hd => ha (hd.trans (List.dropLast_prefix x)), if_neg (not_under_parent hx)]
    exact hp

theorem Moved.placed (h : Moved x d g fs) : getKey d fs ≠ none := by
  have hu := h.under []
  rw [append_nil, append_nil] at hu
  rw [hu]
  exact h.source

theorem moveBack_same (h : Moved x d g fs) (hg : WellFormed g) (hx : x ≠ [])
    (he : existsPath desk fs d) (hd : desk.sameDevice x) (hq : desk.queryExists fs x = false) :
    ∃ out, moveBack desk d x fs = .ok () out ∧ Same g out := by
  obtain ⟨hf, hp, ha⟩ := h.source_free hg hx
  obtain ⟨out, hr, hm⟩ := renameOn_ok h.formed h.placed hf hp ha
  refine ⟨out, ?_, hm.formed, h.back hm hg⟩
  apply run_bind_ok (a := fs) (t := fs) rfl
  rw [if_neg (by rw [he]; exact Bool.noConfusion), if_neg (by rw [hq]; exact nofun), hd]
  exact run_bind_ok (run_attempt_ok hr) rfl

/-! What was replaced. -/

/-- Not every name that may be tried is taken. -/
def stagingFree (desk : Desktop) (stamp : ℕ) (path : Path) (fs : FileSystem) : Bool :=
  (transferUndoStagingPath desk stamp path fs).toBool

theorem transferUndoStagingPath_free (h : stagingFree desk stamp d fs) :
    ∃ displaced, transferUndoStagingPath desk stamp d fs = .ok displaced ∧ d ≠ [] ∧
      displaced.dropLast = d.dropLast ∧ displaced ≠ [] ∧ getKey displaced fs = none := by
  unfold stagingFree at h
  rcases hp : transferUndoStagingPath desk stamp d fs with err | displaced
  · rw [hp] at h
    cases h
  · refine ⟨displaced, rfl, ?_⟩
    unfold transferUndoStagingPath at hp
    by_cases hd : d = []
    · rw [if_pos hd] at hp
      cases hp
    · rw [if_neg hd] at hp
      split at hp
      · rename_i candidate hf
        cases hp
        have hm := List.mem_of_find?_eq_some hf
        obtain ⟨attempt, -, rfl⟩ := List.mem_map.mp hm
        refine ⟨hd, List.dropLast_concat, List.concat_ne_nil _ _, ?_⟩
        have hfr := List.find?_some hf
        simpa [pathLexists] using hfr
      · cases hp

/-- A path with the same folder that is not there. -/
theorem not_under_beside (hd : d ≠ []) (hb : p.dropLast = d.dropLast) (hne : d ≠ p) (hp : p ≠ [])
    : ¬ d <+: p := by
  intro hu
  rw [← dropLast_append_getLast hp] at hu hne
  rcases prefix_concat_iff.mp hu with heq | hle
  · exact hne heq
  · rw [hb] at hle
    exact not_under_parent hd hle

theorem pathLexists_of_present (h : getKey p fs ≠ none) : pathLexists fs p :=
  isSome_iff_ne_none.mpr h

theorem Replaced.backup_present (h : Replaced d b g fs) : getKey b fs ≠ none := by
  have hb := h.backup []
  rw [append_nil, append_nil] at hb
  rw [hb]
  exact h.present

theorem restoreReplacedCopy_same (h : Replaced d b g fs) (hs : stagingFree desk stamp d fs) :
    ∃ out, restoreReplacedCopy desk stamp d b fs = .ok () out ∧ Same g out := by
  obtain ⟨u, hp, hd, hbe, hu, hf⟩ := transferUndoStagingPath_free hs
  have hb := h.backup_present
  have hbd : ¬ b <+: d := free_apart h.before h.present h.free
  have hud : ¬ u <+: d := free_apart h.formed h.placed hf
  have hub : ¬ u <+: b := free_apart h.formed hb hf
  have hdu : ¬ d <+: u := by
    refine not_under_beside hd hbe ?_ hu
    rintro rfl
    exact h.placed hf
  have hbu : ¬ b <+: u := by
    intro hun
    rw [← dropLast_append_getLast hu] at hun
    rcases prefix_concat_iff.mp hun with heq | hle
    · rw [dropLast_append_getLast hu] at heq
      exact hb (heq ▸ hf)
    · rw [hbe] at hle
      exact hbd (hle.trans (List.dropLast_prefix d))
  have hpa := parent_of_present h.formed hd h.placed
  obtain ⟨aside, ha, hm⟩ := renameOn_ok h.formed h.placed hf (by rwa [hbe]) hdu
  -- The backup comes back, and then what was in its place is removed.
  have hba : getKey b aside = getKey b fs := by
    rw [hm.other b hub, if_neg h.apart]
  have hfo : getKey d.dropLast aside = some .dir := by
    rw [hm.other _ (hbe ▸ not_under_parent hu), if_neg (not_under_parent hd)]
    exact hpa
  obtain ⟨restored, hre, hr⟩ := renameOn_ok hm.formed (by rwa [hba])
    (hm.gone hud (prefix_refl d)) hfo hbd
  have hdi : getKey u restored ≠ none := by
    rw [hr.other u hdu, if_neg hbu]
    exact hm.placed
  obtain ⟨out, hrm, hc⟩ := removeDisplaced_ok hr.formed hdi
  refine ⟨out, ?_, hc.formed, ?_⟩
  · apply run_bind_ok (a := fs) (t := fs) rfl
    rw [if_neg]
    · apply run_bind_ok (a := u) (t := fs)
      · rw [hp]
        rfl
      · apply run_bind_ok ha
        exact run_bind_ok (run_attempt_ok hre) hrm
    · rw [pathLexists_of_present h.placed, pathLexists_of_present hb]
      simp
  · intro q
    rw [hc.lookup]
    by_cases hqu : u <+: q
    · have hn : getKey u g = none := (h.other u hdu hbu).symm.trans hf
      rw [if_pos hqu, absent_under h.before hn hqu]
    · rw [if_neg hqu]
      by_cases hqd : d <+: q
      · obtain ⟨s, rfl⟩ := hqd
        rw [hr.under, hm.other _ (not_under_append hub hbu),
          if_neg (not_under_append h.apart hbd), h.backup]
      · rw [hr.other q hqd]
        by_cases hqb : b <+: q
        · rw [if_pos hqb, absent_under h.before h.free hqb]
        · rw [if_neg hqb, hm.other q hqu, if_neg hqd, h.other q hqd hqb]

/-- The move back, and the restored destination. -/
theorem restoreReplacedMove_same (h : ReplacedBy x d b g fs) (hx : x ≠ [])
    (hmo : ∀ fs, WellFormed fs → getKey d fs = getKey x g → getKey x fs = none →
      getKey x.dropLast fs = some .dir →
        ∃ back, movePathExact desk (desk.sameDevice x) d x fs = .ok () back ∧ Moved d x fs back) :
    ∃ out, restoreReplacedMove desk x d b fs = .ok () out ∧ Same g out := by
  have hbx : ¬ b <+: x := free_apart h.before h.source h.free
  have hbd : ¬ b <+: d := free_apart h.before h.present h.free
  have hd : d ≠ [] := by
    rintro rfl
    exact h.above (List.nil_prefix)
  have hxf : getKey x fs = none := by
    rw [h.other x h.above hbx, if_pos (prefix_refl x)]
  have hp : getKey d fs = getKey x g := by
    have hm := h.moved []
    rwa [append_nil, append_nil] at hm
  have hb : getKey b fs = getKey d g := by
    have hm := h.backup []
    rwa [append_nil, append_nil] at hm
  have hd' : getKey d fs ≠ none := hp ▸ h.source
  have hb' : getKey b fs ≠ none := hb ▸ h.present
  have hpa : getKey x.dropLast fs = some .dir := by
    have hup := dropLast_prefix x
    rw [h.other _ (fun hu => h.above (hu.trans hup)) fun hu => hbx (hu.trans hup),
      if_neg (not_under_parent hx)]
    exact parent_of_present h.before hx h.source
  obtain ⟨back, he, hm⟩ := hmo fs h.formed hp hxf hpa
  have hf : getKey d.dropLast back = some .dir := by
    rw [hm.other _ fun hu => h.below (hu.trans (List.dropLast_prefix d)),
      if_neg (not_under_parent hd)]
    exact parent_of_present h.formed hd hd'
  have ht : getKey b back ≠ none := by
    rw [hm.other b h.aside, if_neg h.apart]
    exact hb'
  obtain ⟨out, hre, hr⟩ := renameOn_ok hm.formed ht (hm.gone h.below (prefix_refl d)) hf hbd
  refine ⟨out, ?_, hr.formed, ?_⟩
  · apply run_bind_ok (a := fs) (t := fs) rfl
    have hl : pathLexists fs x = false := by rw [pathLexists, hxf]; rfl
    rw [if_neg (by rw [hl]; exact Bool.false_ne_true), if_neg]
    · apply run_bind_ok he
      exact run_bind_ok (run_attempt_ok hre) rfl
    · rw [pathLexists_of_present hd', pathLexists_of_present hb']
      simp
  · intro q
    by_cases hqd : d <+: q
    · obtain ⟨s, rfl⟩ := hqd
      rw [hr.under, hm.other _ (not_under_append h.aside hbx),
        if_neg (not_under_append h.apart hbd), h.backup]
    · rw [hr.other q hqd]
      by_cases hqb : b <+: q
      · rw [if_pos hqb, absent_under h.before h.free hqb]
      · rw [if_neg hqb]
        by_cases hqx : x <+: q
        · obtain ⟨s, rfl⟩ := hqx
          rw [hm.under, h.moved]
        · rw [hm.other q hqx, if_neg hqd, h.other q hqd hqb, if_neg hqx]

end FocalDesk.Transfer
