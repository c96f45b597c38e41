import Mathlib.Data.List.Basic
import Mathlib.Logic.Function.Basic

/-!
A cache that admits a key it does not hold and forgets a key once it is older
than a window. Sweeps happen at every visit, also at those that offer no key.
-/
namespace FocalDesk.Library
open List

/-- One visit to the cache: it sweeps at its time and may offer a key. -/
structure Visit (κ : Type*) where
  time : ℕ
  offer : Option κ

variable {κ : Type*} [DecidableEq κ] {win : ℕ} {c : κ → Option ℕ} {k : κ}
  {v : Visit κ} {vs : List (Visit κ)} {a : ℕ}

def sweep (window now : ℕ) (c : κ → Option ℕ) (k : κ) : Option ℕ :=
  (c k).filter fun seen => now - seen ≤ window

/-- The cache after a visit, and whether the offered key was admitted. -/
def visit (window : ℕ) (c : κ → Option ℕ) (v : Visit κ) : Bool × (κ → Option ℕ) :=
  match v.offer with
  | none => (false, sweep window v.time c)
  | some k =>
    if (sweep window v.time c k).isSome then (false, sweep window v.time c)
    else (true, Function.update (sweep window v.time c) k (some v.time))

/-- How often `k` is admitted over a list of visits. -/
def admissions (window : ℕ) (k : κ) : (κ → Option ℕ) → List (Visit κ) → ℕ
  | _, [] => 0
  | c, v :: vs =>
    (if v.offer = some k ∧ (visit window c v).1 = true then 1 else 0) +
      admissions window k (visit window c v).2 vs

theorem visit_of_ne (h : v.offer ≠ some k) :
    (visit win c v).2 k = sweep win v.time c k := by
  cases ho : v.offer with
  | none => simp [visit, ho]
  | some j =>
    have hne : k ≠ j := by
      rintro rfl
      exact h ho
    simp only [visit, ho]
    split <;> simp [hne]

theorem visit_of_held (h : v.offer = some k) (hk : (sweep win v.time c k).isSome) :
    visit win c v = (false, sweep win v.time c) := by
  simp [visit, h, hk]

theorem visit_of_absent (h : v.offer = some k) (hk : sweep win v.time c k = none) :
    visit win c v = (true, Function.update (sweep win v.time c) k (some v.time)) := by
  simp [visit, h, hk]

omit [DecidableEq κ] in
theorem sweep_none (hk : c k = none) (now : ℕ) : sweep win now c k = none := by
  simp [sweep, hk]

omit [DecidableEq κ] in
theorem sweep_some (hk : c k = some a) (now : ℕ) :
    sweep win now c k = if now ≤ a + win then some a else none := by
  by_cases h : now ≤ a + win <;> simp [sweep, hk, h] <;> omega

theorem admissions_of_not_offered (h : ∀ v ∈ vs, v.offer ≠ some k) :
    admissions win k c vs = 0 := by
  induction vs generalizing c with
  | nil => rfl
  | cons v vs ih =>
    have hv := h v (by simp)
    simp [admissions, hv, ih fun w hw => h w (by simp [hw])]

/-- While a key is held, visits inside its window do not admit it again. -/
theorem admissions_of_held (hk : c k = some a) (hs : vs.Pairwise fun v w => v.time ≤ w.time)
    (hw : ∀ v ∈ vs, v.offer = some k → v.time ≤ a + win) :
    admissions win k c vs = 0 := by
  induction vs generalizing c with
  | nil => rfl
  | cons v vs ih =>
    obtain ⟨hv, hs⟩ := pairwise_cons.mp hs
    have hw' : ∀ w ∈ vs, w.offer = some k → w.time ≤ a + win := fun w hm => hw w (by simp [hm])
    by_cases ho : v.offer = some k
    · have hin : sweep win v.time c k = _ := sweep_some hk v.time
      rw [if_pos (hw v (by simp) ho)] at hin
      have hvi := visit_of_held ho (Option.isSome_of_eq_some hin)
      simp [admissions, hvi, ih hin hs hw']
    · by_cases hin : v.time ≤ a + win
      · have hke : (visit win c v).2 k = some a := by
          rw [visit_of_ne ho, sweep_some hk, if_pos hin]
        simp [admissions, ho, ih hke hs hw']
      · -- The key has expired here, so no later visit may offer it.
        have hn : ∀ w ∈ vs, w.offer ≠ some k := by
          intro w hm hwo
          have := hw' w hm hwo
          have := hv w hm
          omega
        simp [admissions, ho, admissions_of_not_offered hn]

/-- A key that is absent or held since `a` is admitted again by an offer past its window. -/
theorem admissions_pos (hk : c k = none ∨ c k = some a)
    (h : ∃ v ∈ vs, v.offer = some k ∧ a + win < v.time) :
    0 < admissions win k c vs := by
  induction vs generalizing c with
  | nil => simp at h
  | cons v vs ih =>
    have hsw : sweep win v.time c k = none ∨ sweep win v.time c k = some a := by
      rcases hk with hk | hk
      · exact .inl (sweep_none hk _)
      · rw [sweep_some hk]
        split <;> simp
    by_cases ho : v.offer = some k
    · rcases hsw with hn | hs
      · have hv := visit_of_absent ho hn
        simp only [admissions, ho, hv, and_self, if_true]
        omega
      · have hv := visit_of_held ho (Option.isSome_of_eq_some hs)
        have hle : v.time ≤ a + win := by
          by_contra hlt
          rcases hk with hk | hk
          · simp [sweep_none hk] at hs
          · simp [sweep_some hk, hlt] at hs
        obtain ⟨w, hm, hwo, hlt⟩ := h
        have hw : w ∈ vs := by
          rcases mem_cons.mp hm with rfl | hm
          · omega
          · exact hm
        have := ih (c := (visit win c v).2) (by simp [hv, hs]) ⟨w, hw, hwo, hlt⟩
        simp only [admissions]
        omega
    · obtain ⟨w, hm, hwo, hlt⟩ := h
      have hw : w ∈ vs := by
        rcases mem_cons.mp hm with rfl | hm
        · exact absurd hwo ho
        · exact hm
      have := ih (c := (visit win c v).2) (by rw [visit_of_ne ho]; exact hsw) ⟨w, hw, hwo, hlt⟩
      simp only [admissions]
      omega

/-- An absent key is admitted at most once exactly when every offer of it comes
within the window of every earlier one. -/
theorem admissions_le_one_iff (hk : c k = none) (hs : vs.Pairwise fun v w => v.time ≤ w.time) :
    admissions win k c vs ≤ 1 ↔
      vs.Pairwise fun v w => v.offer = some k → w.offer = some k → w.time ≤ v.time + win := by
  induction vs generalizing c with
  | nil => simp [admissions]
  | cons v vs ih =>
    obtain ⟨hv, hs⟩ := pairwise_cons.mp hs
    rw [pairwise_cons]
    by_cases ho : v.offer = some k
    · have hvi : visit win c v = _ := visit_of_absent ho (sweep_none hk v.time)
      have hh : (visit win c v).2 k = some v.time := by simp [hvi]
      have hc : admissions win k c (v :: vs) =
          1 + admissions win k (visit win c v).2 vs := by simp [admissions, ho, hvi]
      simp only [hc, ho, true_imp_iff]
      constructor
      · intro hle
        have hin : ∀ w ∈ vs, w.offer = some k → w.time ≤ v.time + win := by
          intro w hm hwo
          by_contra hlt
          have := admissions_pos (.inr hh) ⟨w, hm, hwo, Nat.lt_of_not_le hlt⟩
          omega
        refine ⟨hin, hs.imp_of_mem ?_⟩
        intro w x hw hx _ _ hxo
        have := hin x hx hxo
        have := hv w hw
        omega
      · rintro ⟨hin, _⟩
        have := admissions_of_held hh hs hin
        omega
    · have ha : (visit win c v).2 k = none := by
        rw [visit_of_ne ho, sweep_none hk]
      simp [admissions, ho, ih ha hs]

end FocalDesk.Library
