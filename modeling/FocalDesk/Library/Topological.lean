import Mathlib.Data.List.Sort
import Mathlib.Data.Nat.Find

/-! Topological orders of finite graphs, and walks of bounded length. -/
namespace FocalDesk.Library
open List

variable {α : Type*} [DecidableEq α] {next : α → List α} {items order : List α} {a b : α} {n m : ℕ}

/-- An order of all items in which what an item leads to comes before it. -/
def Topological (next : α → List α) (items order : List α) : Prop :=
  order.Perm items ∧ ∀ a ∈ items, ∀ b ∈ next a, order.idxOf b < order.idxOf a

/-- No walk from an item has more than so many items. -/
def Shallow (next : α → List α) : ℕ → α → Prop
  | 0, _ => False
  | n + 1, a => ∀ b ∈ next a, Shallow next n b

omit [DecidableEq α] in
/-- Items rank above all that they lead to as soon as walks from them are bounded. -/
theorem exists_rank (h : ∀ a ∈ items, ∃ n, Shallow next n a) :
    ∃ rank : α → ℕ, ∀ a ∈ items, ∀ b ∈ next a, rank b < rank a := by
  classical
  refine ⟨fun a => if ha : ∃ n, Shallow next n a then Nat.find ha else 0, fun a ha b hb => ?_⟩
  have hd := h a ha
  dsimp only
  rw [dif_pos hd]
  cases hr : Nat.find hd with
  | zero =>
    have hs := Nat.find_spec hd
    rw [hr] at hs
    exact hs.elim
  | succ n =>
    have hs := Nat.find_spec hd
    rw [hr] at hs
    have hbe : ∃ n, Shallow next n b := ⟨n, hs b hb⟩
    rw [dif_pos hbe]
    exact Nat.lt_succ_of_le (Nat.find_min' hbe (hs b hb))

/-- Sorted by rank, items come in order. -/
theorem exists_topological_of_rank (rank : α → ℕ) (hc : ∀ a ∈ items, ∀ b ∈ next a, b ∈ items)
    (hr : ∀ a ∈ items, ∀ b ∈ next a, rank b < rank a) :
    ∃ order, Topological next items order := by
  have hp := perm_insertionSort (fun a b => rank a ≤ rank b) items
  refine ⟨_, hp, fun a ha b hb => ?_⟩
  by_contra hge
  have hm := hp.mem_iff.mpr ha
  have hme := hp.mem_iff.mpr (hc a ha b hb)
  have hl := idxOf_lt_length_iff.mpr hm
  have hlb := idxOf_lt_length_iff.mpr hme
  have hs := pairwise_insertionSort (fun a b => rank a ≤ rank b) items
  have hle : rank a ≤ rank b := by
    rcases (Nat.le_of_not_lt hge).lt_or_eq with hlt | heq
    · have hpa := pairwise_iff_getElem.mp hs _ _ hl hlb hlt
      rwa [getElem_idxOf, getElem_idxOf] at hpa
    · rw [(idxOf_inj hm).mp heq]
  exact absurd (hr a ha b hb) (Nat.not_lt_of_le hle)

theorem Topological.shallow (h : Topological next items order)
    (hc : ∀ a ∈ items, ∀ b ∈ next a, b ∈ items) :
    ∀ a ∈ items, order.idxOf a < n → Shallow next n a := by
  induction n with
  | zero => exact fun a _ hlt => absurd hlt (Nat.not_lt_zero _)
  | succ n ih =>
    intro a ha hlt b hb
    have hbe := h.2 a ha b hb
    exact ih b (hc a ha b hb) (by omega)

theorem exists_topological_iff (hc : ∀ a ∈ items, ∀ b ∈ next a, b ∈ items) :
    (∃ order, Topological next items order) ↔ ∀ a ∈ items, ∃ n, Shallow next n a := by
  constructor
  · rintro ⟨order, h⟩ a ha
    exact ⟨_, h.shallow hc a ha (Nat.lt_succ_self _)⟩
  · intro h
    obtain ⟨rank, hr⟩ := exists_rank h
    exact exists_topological_of_rank rank hc hr

end FocalDesk.Library
