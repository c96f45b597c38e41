import Mathlib.Data.List.Count
import Mathlib.Order.Nat

/-! Measures along a sequence of states. -/
namespace FocalDesk.Library
open List

variable {rank : ℕ → ℕ} {m n : ℕ}

theorem le_of_forall_succ_le (h : ∀ n, rank (n + 1) ≤ rank n) (hmn : m ≤ n) : rank n ≤ rank m := by
  induction n, hmn using Nat.le_induction with
  | base => exact le_rfl
  | succ n hmn ih => exact (h n).trans ih

/-- A measure that never grows is constant from some time on. -/
theorem exists_steady (rank : ℕ → ℕ) (h : ∀ n, rank (n + 1) ≤ rank n) : ∃ m, ∀ n, m ≤ n → rank n = rank m := by
  classical
  have hex : ∃ v, ∃ m, rank m = v := ⟨rank 0, 0, rfl⟩
  obtain ⟨m, hm⟩ := Nat.find_spec hex
  refine ⟨m, fun n hmn => ?_⟩
  have hl := Nat.find_min' hex ⟨n, rfl⟩
  have hle := le_of_forall_succ_le h hmn
  omega

/-- What a decreasing measure cannot avoid for ever happens. -/
theorem exists_of_decreasing (rank : ℕ → ℕ) (P : ℕ → Prop)
    (h : ∀ n, m ≤ n → ¬ P n → rank (n + 1) < rank n) (hmn : m ≤ n) :
    ∃ k, n ≤ k ∧ P k := by
  induction hr : rank n using Nat.strong_induction_on generalizing n with
  | h v ih =>
    by_cases hp : P n
    · exact ⟨n, le_rfl, hp⟩
    · obtain ⟨k, hk, hpk⟩ := ih _ (hr ▸ h n hmn hp) (hmn.trans n.le_succ) rfl
      exact ⟨k, n.le_succ.trans hk, hpk⟩

/-- Fewer elements pass a stricter test that one of them fails. -/
theorem countP_lt {α : Type*} {p q : α → Bool} {a : α} {as : List α} (ha : a ∈ as) (hp : p a)
    (hq : q a = false) (h : ∀ b ∈ as, q b → p b) :
    as.countP q < as.countP p := by
  induction as with
  | nil => cases ha
  | cons fst as ih =>
    obtain ⟨hf, hr⟩ := forall_mem_cons.mp h
    have hle := countP_mono_left hr
    rw [countP_cons, countP_cons]
    rcases mem_cons.mp ha with rfl | ha
    · rw [hp, hq, if_pos rfl, if_neg Bool.false_ne_true]
      omega
    · have hlt := ih ha hr
      by_cases hqf : q fst
      · rw [hf hqf, hqf]
        omega
      · rw [if_neg hqf]
        omega

end FocalDesk.Library
