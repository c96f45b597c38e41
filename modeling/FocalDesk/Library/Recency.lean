import Mathlib.Data.List.Basic
import Mathlib.Data.List.Nodup

/-! Bounded lists of distinct values, the one remembered last first. -/
namespace FocalDesk.Library
open List

variable {α : Type*} [DecidableEq α] {value : α} {values ents : List α}

/-- The values without the repetitions of earlier ones. -/
def distinct : List α → List α
  | [] => []
  | value :: values => value :: (distinct values).filter (· ≠ value)

/-- A value comes first, and a list that is too long loses its last ones. -/
def rememberFirst (limit : ℕ) (entries : List α) (value : α) : List α :=
  (value :: entries.filter (· ≠ value)).take limit

@[simp] theorem mem_distinct : value ∈ distinct values ↔ value ∈ values := by
  induction values with
  | nil => rfl
  | cons fst values ih =>
    by_cases hs : value = fst
    · simp [distinct, hs]
    · simp [distinct, hs, ih]

theorem nodup_distinct (values : List α) : (distinct values).Nodup := by
  induction values with
  | nil => exact nodup_nil
  | cons value values ih =>
    refine nodup_cons.mpr ⟨?_, ih.filter _⟩
    simp

theorem distinct_of_nodup (h : values.Nodup) : distinct values = values := by
  induction values with
  | nil => rfl
  | cons value values ih =>
    obtain ⟨hno, hn⟩ := nodup_cons.mp h
    rw [distinct, ih hn, filter_eq_self.mpr]
    intro other ho
    exact decide_eq_true fun hs => hno (hs ▸ ho)

/-- A list without repetitions loses at most one entry. -/
theorem length_filter_ne (h : values.Nodup) (value : α) :
    values.length ≤ (values.filter (· ≠ value)).length + 1 := by
  induction values with
  | nil => exact Nat.zero_le _
  | cons fst values ih =>
    obtain ⟨hno, hn⟩ := nodup_cons.mp h
    by_cases hs : fst = value
    · subst hs
      have ha : values.filter (· ≠ fst) = values :=
        filter_eq_self.mpr fun other ho =>
          decide_eq_true fun hs => hno (hs ▸ ho)
      have hl : ((fst :: values).filter (· ≠ fst)).length = values.length := by
        rw [filter_cons_of_neg (by simp), ha]
      rw [length_cons]
      omega
    · have hl := ih hn
      rw [filter_cons_of_pos (by simpa using hs), length_cons, length_cons]
      omega

/-- Remembering in a shortened list shortens what would be remembered in the whole one. -/
theorem rememberFirst_take (h : ents.Nodup) (lim : ℕ) (value : α) :
    rememberFirst lim (ents.take lim) value =
      (value :: ents.filter (· ≠ value)).take lim := by
  unfold rememberFirst
  cases lim with
  | zero => rfl
  | succ lim =>
    rw [take_succ_cons, take_succ_cons]
    have hs : ents.filter (· ≠ value) =
        (ents.take (lim + 1)).filter (· ≠ value) ++
          (ents.drop (lim + 1)).filter (· ≠ value) := by
      rw [← filter_append, take_append_drop]
    by_cases hl : lim + 1 ≤ ents.length
    · have hle := length_filter_ne (h.sublist (take_sublist (lim + 1) ents)) value
      rw [length_take, Nat.min_eq_left hl] at hle
      rw [hs, take_append_of_le_length (by omega)]
    · rw [take_of_length_le (Nat.le_of_lt (Nat.lt_of_not_le hl))]

/-- Values that are remembered one after the other leave the distinct ones, the last first. -/
theorem rememberFirst_distinct (lim : ℕ) (values : List α) (value : α) :
    rememberFirst lim ((distinct values).take lim) value = (distinct (value :: values)).take lim :=
  rememberFirst_take (nodup_distinct values) lim value

end FocalDesk.Library
