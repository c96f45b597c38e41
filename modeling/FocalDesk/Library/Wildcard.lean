import Mathlib.Data.List.Forall2

/-! Patterns in which one letter, the star, stands for any word. -/
namespace FocalDesk.Library
variable {α : Type*} {star a : α} {pattern text w : List α}

/-- The text is the pattern with each star replaced by some word, and no other letter. -/
def Expands (star : α) (pattern text : List α) : Prop :=
  ∃ pieces, List.Forall₂ (fun a piece => a = star ∨ piece = [a]) pattern pieces ∧
    pieces.flatten = text

theorem expands_nil : Expands star [] text ↔ text = [] := by
  simp [Expands, eq_comm]

theorem expands_star : Expands star (star :: pattern) text ↔
    ∃ n, Expands star pattern (text.drop n) := by
  constructor
  · rintro ⟨pcs, hp, rfl⟩
    obtain _ | ⟨-, ht⟩ := hp
    rename_i piece pcs
    exact ⟨piece.length, pcs, ht, by simp⟩
  · rintro ⟨n, pcs, hp, hf⟩
    exact ⟨text.take n :: pcs, .cons (.inl rfl) hp, by simp [hf]⟩

theorem expands_letter (ha : a ≠ star) : Expands star (a :: pattern) text ↔
    ∃ rest, text = a :: rest ∧ Expands star pattern rest := by
  constructor
  · rintro ⟨pcs, hp, rfl⟩
    obtain _ | ⟨hh, ht⟩ := hp
    obtain rfl := hh.resolve_left ha
    exact ⟨_, rfl, _, ht, rfl⟩
  · rintro ⟨rest, rfl, pcs, hp, rfl⟩
    exact ⟨[a] :: pcs, .cons (.inr rfl) hp, rfl⟩

/-- A word without a star stands for itself. -/
theorem expands_word (hw : ∀ a ∈ w, a ≠ star) : Expands star (w ++ pattern) text ↔
    ∃ rest, text = w ++ rest ∧ Expands star pattern rest := by
  induction w generalizing text with
  | nil => simp
  | cons a w ih =>
    rw [List.cons_append, expands_letter (hw a (by simp))]
    simp only [ih fun b hb => hw b (by simp [hb])]
    constructor
    · rintro ⟨_, rfl, rest, rfl, hr⟩
      exact ⟨rest, rfl, hr⟩
    · rintro ⟨rest, rfl, hr⟩
      exact ⟨_, rfl, rest, rfl, hr⟩

/-- What a star stands for may be longer. -/
theorem Expands.of_drop {n : ℕ} (h : Expands star (star :: pattern) (text.drop n)) :
    Expands star (star :: pattern) text := by
  obtain ⟨m, hm⟩ := (expands_star).mp h
  rw [List.drop_drop] at hm
  exact (expands_star).mpr ⟨_, hm⟩

end FocalDesk.Library
