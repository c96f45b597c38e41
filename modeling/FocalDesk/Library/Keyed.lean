import Mathlib.Data.List.Nodup

/-! Lists of records with a key: the update of the records of one key, and the rule for a fold
of such updates. -/
namespace FocalDesk.Library
open List

variable {α κ : Type*} [DecidableEq κ] {key : α → κ} {k : κ} {f : α → α} {as : List α} {a b : α}

def updateKey (key : α → κ) (k : κ) (f : α → α) (as : List α) : List α :=
  as.map fun a => if key a = k then f a else a

theorem mem_updateKey :
    b ∈ updateKey key k f as ↔ ∃ a ∈ as, (if key a = k then f a else a) = b := mem_map

theorem forall_mem_updateKey {P : α → Prop} (hP : ∀ a ∈ as, P a)
    (hf : ∀ a ∈ as, key a = k → P (f a)) : ∀ b ∈ updateKey key k f as, P b := by
  intro b hb
  obtain ⟨a, ha, rfl⟩ := (mem_updateKey).mp hb
  by_cases hk : key a = k
  · rw [if_pos hk]
    exact hf a ha hk
  · rw [if_neg hk]
    exact hP a ha

/-- What the changed records show as before, all records show as before. -/
theorem map_updateKey {β : Type*} {g : α → β} (h : ∀ a ∈ as, key a = k → g (f a) = g a) :
    (updateKey key k f as).map g = as.map g := by
  rw [updateKey, map_map]
  refine map_congr_left fun a ha => ?_
  by_cases hk : key a = k
  · simp [hk, h a ha hk]
  · simp [hk]

/-- A fold keeps what each of its steps keeps, for the entries it goes over. -/
theorem foldl_invariant {σ ε : Type*} {step : σ → ε → σ} (Inv : σ → Prop) (C : ε → Prop)
    (hst : ∀ s e, Inv s → C e → Inv (step s e)) {es : List ε} {s : σ} (hs : Inv s)
    (hes : ∀ e ∈ es, C e) : Inv (es.foldl step s) := by
  induction es generalizing s with
  | nil => exact hs
  | cons e es ih =>
    obtain ⟨he, hes⟩ := forall_mem_cons.mp hes
    exact ih (hst s e hs he) hes

end FocalDesk.Library
