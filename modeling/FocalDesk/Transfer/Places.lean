import FocalDesk.Archive.Header

/-! Where the contents of files are after moves, copies and removals. -/
namespace FocalDesk.Transfer
open Library Archive List

variable {fs fs' before : FileSystem} {x y p q r : Path} {data : List UInt8} {node : Node}
  {places : List Path}

/-- A file with these contents is under a path. -/
def Holds (fs : FileSystem) (q : Path) (data : List UInt8) : Prop := getKey q fs = some (.file data)

/-- All contents are where they were or somewhere below a recorded place. -/
def Kept (before fs : FileSystem) (places : List Path) : Prop :=
  ∀ p data, Holds before p data → ∃ q, Holds fs q data ∧ (q = p ∨ ∃ place ∈ places, place <+: q)

def relocate (x y q : Path) : Path := if x <+: q then y ++ q.drop x.length else q

/-- Everything under a path is moved under another. -/
def moveTree (x y : Path) (fs : FileSystem) : FileSystem :=
  (removeKey y fs).map fun entry => (relocate x y entry.1, entry.2)

/-- `rename` -/
def renamePath (fs : FileSystem) (x y : Path) : Except IoError FileSystem :=
  match getKey x fs with
  | none => .error (missing fs x)
  | some node =>
    if getKey y.dropLast fs ≠ some .dir then .error (missing fs y)
    else if x = y then .ok fs
    else if x <+: y then .error ⟨.invalidInput, .system⟩
    else match getKey y fs with
      | none => .ok (moveTree x y fs)
      | some .dir =>
        if node = .dir ∧ hasChildren fs y = false then .ok (moveTree x y fs)
        else .error ⟨.other, .system⟩
      | some _ => if node = .dir then .error ⟨.other, .system⟩ else .ok (moveTree x y fs)

/-! Moves. -/

theorem relocate_append (x y s : Path) : relocate x y (x ++ s) = y ++ s := by
  rw [relocate, if_pos (prefix_append x s), drop_left]

theorem relocate_of_not (h : ¬ x <+: q) : relocate x y q = q := if_neg h

/-- Two paths that lead to one are comparable. -/
theorem under_append {s : Path} (h : x <+: y ++ s) : x <+: y ∨ y <+: x :=
  prefix_or_prefix_of_prefix h (prefix_append y s)

/-- A path that is not there has nothing below it. -/
theorem absent_append (hfs : WellFormed fs) (h : getKey y fs = none) (s : Path) :
    getKey (y ++ s) fs = none := by
  by_cases hs : s = []
  · rw [hs, append_nil]
    exact h
  · rcases hk : getKey (y ++ s) fs with _ | node
    · rfl
    · have hd := hfs.ancestor hs hk
      rw [h] at hd
      cases hd

theorem absent_under (hfs : WellFormed fs) (h : getKey y fs = none) (hq : y <+: q) :
    getKey q fs = none := by
  obtain ⟨s, rfl⟩ := hq
  exact absent_append hfs h s

/-- Nothing is below a path that is no folder. -/
theorem absent_below_leaf (hfs : WellFormed fs) (hn : getKey x fs = some node) (hd : node ≠ .dir)
    {s : Path} (hs : s ≠ []) : getKey (x ++ s) fs = none := by
  rcases hb : getKey (x ++ s) fs with _ | below
  · rfl
  · have ha := hfs.ancestor hs hb
    rw [hn] at ha
    cases ha
    exact absurd rfl hd

theorem getKey_map_relocate (hf : ∀ e ∈ fs, ¬ y <+: e.1) (q : Path) :
    getKey q (fs.map fun e => (relocate x y e.1, e.2)) =
      if y <+: q then getKey (x ++ q.drop y.length) fs
      else if x <+: q then none else getKey q fs := by
  induction fs with
  | nil =>
    simp [getKey]
  | cons e fs ih =>
    have he := hf e mem_cons_self
    rw [map_cons, getKey_cons, ih fun other ho => hf other (mem_cons_of_mem _ ho),
      getKey_cons, getKey_cons]
    by_cases hu : x <+: e.1
    · obtain ⟨s, hs⟩ := hu
      have hp : relocate x y e.1 = y ++ s := by rw [← hs, relocate_append]
      simp only [hp]
      by_cases hq : y <+: q
      · obtain ⟨t, rfl⟩ := hq
        simp [← hs]
      · have hne : q ≠ y ++ s := by
          rintro rfl
          exact hq (prefix_append y s)
        rw [if_neg hne, if_neg hq, if_neg hq]
        by_cases hxq : x <+: q
        · rw [if_pos hxq, if_pos hxq]
        · have hqe : q ≠ e.1 := by
            rintro rfl
            exact hxq ⟨s, hs⟩
          rw [if_neg hxq, if_neg hxq, if_neg hqe]
    · simp only [relocate_of_not hu]
      by_cases hq : y <+: q
      · have hqe : q ≠ e.1 := by
          rintro rfl
          exact he hq
        have hxe : x ++ q.drop y.length ≠ e.1 := by
          rintro heq
          exact hu (heq ▸ prefix_append _ _)
        rw [if_neg hqe, if_pos hq, if_pos hq, if_neg hxe]
      · by_cases hxq : x <+: q
        · have hqe : q ≠ e.1 := by
            rintro rfl
            exact hu hxq
          rw [if_neg hqe, if_neg hq, if_neg hq, if_pos hxq, if_pos hxq]
        · rw [if_neg hq, if_neg hq, if_neg hxq, if_neg hxq]

/-- A rename to a path that was not there. -/
structure Moved (x y : Path) (fs fs' : FileSystem) : Prop where
  source : getKey x fs ≠ none
  absent : getKey y fs = none
  apart : ¬ x <+: y
  formed : WellFormed fs'
  under : ∀ s, getKey (y ++ s) fs' = getKey (x ++ s) fs
  other : ∀ q, ¬ y <+: q → getKey q fs' = if x <+: q then none else getKey q fs

theorem moved_moveTree (hfs : WellFormed fs) (hs : getKey x fs ≠ none) (hab : getKey y fs = none)
    (hp : getKey y.dropLast fs = some .dir) (ha : ¬ x <+: y) : Moved x y fs (moveTree x y fs) := by
  have hfr : ∀ e ∈ fs, ¬ y <+: e.1 := by
    rintro ⟨p, node⟩ he hu
    obtain ⟨found, hf⟩ := exists_getKey_of_mem he
    rw [absent_under hfs hab hu] at hf
    cases hf
  have hk : removeKey y fs = fs := by
    apply filter_eq_self.mpr
    intro e he
    apply decide_eq_true
    intro heq
    exact hfr e he (heq ▸ prefix_refl _)
  have hl : ∀ q, getKey q (moveTree x y fs) =
      if y <+: q then getKey (x ++ q.drop y.length) fs
      else if x <+: q then none else getKey q fs := by
    intro q
    rw [moveTree, hk]
    exact getKey_map_relocate hfr q
  have hu : ∀ s, getKey (y ++ s) (moveTree x y fs) = getKey (x ++ s) fs := by
    intro s
    rw [hl, if_pos (prefix_append y s), drop_left]
  have ho : ∀ q, ¬ y <+: q →
      getKey q (moveTree x y fs) = if x <+: q then none else getKey q fs := by
    intro q hq
    rw [hl, if_neg hq]
  refine ⟨hs, hab, ha, ?_, hu, ho⟩
  intro p name node hn
  by_cases hy : y <+: p
  · obtain ⟨s, rfl⟩ := hy
    rw [append_assoc, hu, ← append_assoc] at hn
    rw [hu]
    exact hfs _ name node hn
  · rw [ho p hy]
    have hno : ¬ x <+: p := by
      intro hx
      by_cases hyp : y <+: p ++ [name]
      · rcases prefix_concat_iff.mp hyp with heq | hle
        · exact ha (heq ▸ hx.trans (prefix_append _ _))
        · exact hy hle
      · rw [ho _ hyp, if_pos (hx.trans (prefix_append _ _))] at hn
        cases hn
    rw [if_neg hno]
    by_cases hyp : y <+: p ++ [name]
    · rcases prefix_concat_iff.mp hyp with heq | hle
      · rw [heq, dropLast_concat] at hp
        exact hp
      · exact absurd hle hy
    · rw [ho _ hyp] at hn
      by_cases hx : x <+: p ++ [name]
      · rw [if_pos hx] at hn
        cases hn
      · rw [if_neg hx] at hn
        exact hfs p name node hn

theorem renamePath_absent (hfs : WellFormed fs) (ha : getKey y fs = none)
    (h : renamePath fs x y = .ok fs') : Moved x y fs fs' := by
  unfold renamePath at h
  rcases hn : getKey x fs with _ | node
  · rw [hn] at h
    cases h
  · have hne : x ≠ y := by
      rintro rfl
      rw [hn] at ha
      cases ha
    simp only [hn, ha] at h
    by_cases hp : getKey y.dropLast fs = some .dir
    · rw [if_neg (not_not.mpr hp), if_neg hne] at h
      by_cases hu : x <+: y
      · rw [if_pos hu] at h
        cases h
      · rw [if_neg hu] at h
        cases h
        exact moved_moveTree hfs (by rw [hn]; exact Option.some_ne_none node) ha hp hu
    · rw [if_pos hp] at h
      cases h

namespace Moved

variable (h : Moved x y fs fs')
include h

/-- The contents go along. -/
theorem holds (hfs : WellFormed fs) (hq : Holds fs q data) : Holds fs' (relocate x y q) data := by
  by_cases hx : x <+: q
  · obtain ⟨s, rfl⟩ := hx
    rw [relocate_append]
    exact (h.under s).trans hq
  · rw [relocate_of_not hx]
    have hy : ¬ y <+: q := by
      intro hy
      have hn := absent_under hfs h.absent hy
      rw [Holds, hn] at hq
      cases hq
    unfold Holds
    rw [h.other q hy, if_neg hx]
    exact hq

/-- What was moved away is not there any more. -/
theorem gone (hu : ¬ y <+: q) (hx : x <+: q) : getKey q fs' = none := by
  rw [h.other q hu, if_pos hx]

end Moved

end FocalDesk.Transfer
