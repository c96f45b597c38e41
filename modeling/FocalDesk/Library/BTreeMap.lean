import Mathlib.Data.List.Sort
import Std.Data.ExtTreeMap

/-! Ordered maps and the iterator operations the standard map has no name for. -/
namespace FocalDesk.Library
open Option Std.ExtTreeMap

abbrev BTreeMap (κ ν : Type*) [Ord κ] := Std.ExtTreeMap κ ν compare

/-- Tuples order by their first component, then by their second. -/
instance ordProd {κ ν : Type*} [Ord κ] [Ord ν] : Ord (κ × ν) := lexOrd

variable {α : Type*} {rank : α → ℕ} {best a : α} {as : List α}

/-- Keeps the first of several elements of least rank. -/
def firstLeast (rank : α → ℕ) (best : α) : List α → α
  | [] => best
  | a :: as => firstLeast rank (if rank a < rank best then a else best) as

/-- `Iterator::min_by_key`. -/
def minByKey (rank : α → ℕ) : List α → Option α
  | [] => none
  | a :: as => some (firstLeast rank a as)

theorem firstLeast_mem (rank : α → ℕ) (best : α) (as : List α) :
    firstLeast rank best as = best ∨ firstLeast rank best as ∈ as := by
  induction as generalizing best with
  | nil => exact .inl rfl
  | cons a as ih =>
    simp only [firstLeast]
    split
    · rcases ih a with h | h <;> simp [h]
    · rcases ih best with h | h <;> simp [h]

theorem minByKey_mem (h : minByKey rank as = some a) : a ∈ as := by
  cases as with
  | nil => simp [minByKey] at h
  | cons b bs =>
    obtain rfl : firstLeast rank b bs = a := some.inj h
    rcases firstLeast_mem rank b bs with h | h <;> simp [h]

theorem firstLeast_le (rank : α → ℕ) (best : α) (as : List α) :
    rank (firstLeast rank best as) ≤ rank best ∧
      ∀ b ∈ as, rank (firstLeast rank best as) ≤ rank b := by
  induction as generalizing best with
  | nil => exact ⟨le_rfl, nofun⟩
  | cons a as ih =>
    simp only [firstLeast, List.forall_mem_cons]
    split
    case isTrue hlt =>
      obtain ⟨hb, has⟩ := ih a
      exact ⟨hb.trans hlt.le, hb, has⟩
    case isFalse hle =>
      obtain ⟨hb, has⟩ := ih best
      exact ⟨hb, hb.trans (not_lt.mp hle), has⟩

theorem minByKey_le (h : minByKey rank as = some a) : ∀ b ∈ as, rank a ≤ rank b := by
  cases as with
  | nil => exact nofun
  | cons b bs =>
    obtain rfl : firstLeast rank b bs = a := some.inj h
    obtain ⟨hb, hr⟩ := firstLeast_le rank b bs
    simpa using ⟨hb, hr⟩

theorem exists_minByKey (rank : α → ℕ) (h : a ∈ as) : ∃ b, minByKey rank as = some b := by
  cases as with
  | nil => cases h
  | cons b bs => exact ⟨_, rfl⟩

section
variable {κ ν : Type} [Ord κ] [Std.TransOrd κ] {m : BTreeMap κ ν} {j k : κ} {v : ν}

theorem mem_of_getElem? (h : m[k]? = some v) : k ∈ m :=
  mem_iff_isSome_getElem?.mpr (isSome_of_eq_some h)

theorem not_mem_of_getElem? (h : m[k]? = none) : k ∉ m := by
  rw [mem_iff_isSome_getElem?, h]
  exact Bool.false_ne_true

theorem exists_getElem?_of_mem (h : k ∈ m) : ∃ v, m[k]? = some v :=
  isSome_iff_exists.mp (mem_iff_isSome_getElem?.mp h)

theorem getElem?_of_erase (h : (m.erase j)[k]? = some v) : m[k]? = some v := by
  rw [getElem?_erase] at h
  split at h
  · cases h
  · exact h

/-- What a list of insertions leaves in a map was there or is one of them. -/
theorem getElem?_foldl_insert [Std.LawfulEqOrd κ] {α : Type} {key : α → κ} {value : α → ν}
    {as : List α} (h : (as.foldl (fun m a => m.insert (key a) (value a)) m)[k]? = some v) :
    m[k]? = some v ∨ ∃ a ∈ as, key a = k ∧ value a = v := by
  induction as generalizing m with
  | nil => exact .inl h
  | cons a as ih =>
    rcases ih h with h | ⟨b, hb, hk⟩
    · rw [getElem?_insert] at h
      split at h
      case isTrue heq =>
        cases h
        exact .inr ⟨a, by simp, Std.LawfulEqCmp.eq_of_compare heq, rfl⟩
      case isFalse => exact .inl h
    · exact .inr ⟨b, List.mem_cons_of_mem _ hb, hk⟩

theorem mem_foldl_insert [Std.LawfulEqOrd κ] {α : Type} {key : α → κ} {v : α → ν}
    {as : List α} :
    k ∈ as.foldl (fun m a => m.insert (key a) (v a)) m ↔ k ∈ m ∨ k ∈ as.map key := by
  induction as generalizing m with
  | nil => simp
  | cons a as ih =>
    rw [List.foldl_cons, ih, mem_insert, Std.LawfulEqCmp.compare_eq_iff_eq,
      List.map_cons, List.mem_cons, eq_comm]
    tauto

end

/-- `sort` followed by `dedup`. -/
def sortDedup [Ord α] [BEq α] (as : List α) : List α :=
  (as.insertionSort fun a b => (compare a b).isLE = true).eraseReps

/-! Sorting and deduplicating is idempotent. -/

section SortDedup
variable {α : Type} {a b : α} {as : List α}

theorem eraseReps_loop [BEq α] (a : α) (as acc : List α) :
    List.eraseRepsBy.loop (· == ·) a as acc =
      acc.reverse ++ List.eraseRepsBy.loop (· == ·) a as [] := by
  induction as generalizing a acc with
  | nil => simp [List.eraseRepsBy.loop]
  | cons b bs ih =>
    simp only [List.eraseRepsBy.loop]
    split
    · exact ih a acc
    · rw [ih b (a :: acc), ih b [a]]
      simp

theorem eraseReps_cons_cons [BEq α] (a b : α) (as : List α) : (a :: b :: as).eraseReps =
    if a == b then (a :: as).eraseReps else a :: (b :: as).eraseReps := by
  simp only [List.eraseReps, List.eraseRepsBy, List.eraseRepsBy.loop]
  cases a == b with
  | true => rfl
  | false => exact eraseReps_loop b as [a]

variable [BEq α] [LawfulBEq α]

/-- What is left has no two equal neighbours and starts with the same element. -/
theorem isChain_eraseReps (a : α) (as : List α) :
    ∃ bs, (a :: as).eraseReps = a :: bs ∧ (a :: bs).IsChain (· ≠ ·) ∧ bs.Sublist as := by
  induction as generalizing a with
  | nil => exact ⟨[], rfl, List.IsChain.singleton _, List.Sublist.refl _⟩
  | cons b as ih =>
    rw [eraseReps_cons_cons]
    by_cases hab : a = b
    · subst hab
      obtain ⟨bs, heq, hc, hs⟩ := ih a
      exact ⟨bs, by simp [heq], hc, hs.cons _⟩
    · obtain ⟨bs, heq, hc, hs⟩ := ih b
      refine ⟨b :: bs, by simp [hab, heq], ?_, hs.cons_cons _⟩
      exact List.isChain_cons_cons.mpr ⟨hab, hc⟩

variable {as : List α}

theorem eraseReps_of_isChain (h : as.IsChain (· ≠ ·)) : as.eraseReps = as := by
  induction as with
  | nil => rfl
  | cons a as ih =>
    cases as with
    | nil => rfl
    | cons b as =>
      obtain ⟨hne, ht⟩ := List.isChain_cons_cons.mp h
      rw [eraseReps_cons_cons, ih ht]
      simp [hne]

theorem eraseReps_sublist (as : List α) : as.eraseReps.Sublist as := by
  cases as with
  | nil => exact List.Sublist.refl _
  | cons a as =>
    obtain ⟨bs, heq, -, hs⟩ := isChain_eraseReps a as
    rw [heq]
    exact hs.cons_cons _

theorem mem_eraseReps {a : α} : a ∈ as.eraseReps ↔ a ∈ as := by
  refine ⟨fun h => (eraseReps_sublist as).subset h, fun h => ?_⟩
  induction as with
  | nil => cases h
  | cons b as ih =>
    cases as with
    | nil => exact h
    | cons c as =>
      rw [eraseReps_cons_cons]
      rcases List.mem_cons.mp h with rfl | h
      · split
        case isTrue hs =>
          obtain rfl := eq_of_beq hs
          exact ih (List.mem_cons_self ..)
        case isFalse => exact List.mem_cons_self ..
      · split
        case isTrue hs =>
          obtain rfl := eq_of_beq hs
          exact ih h
        case isFalse => exact List.mem_cons_of_mem _ (ih h)

theorem mem_sortDedup [Ord α] {a : α} : a ∈ sortDedup as ↔ a ∈ as := by
  rw [sortDedup, mem_eraseReps]
  exact (List.perm_insertionSort _ as).mem_iff

theorem eraseReps_eq_nil : as.eraseReps = [] ↔ as = [] := by
  cases as with
  | nil => exact iff_of_true rfl rfl
  | cons a as =>
    obtain ⟨bs, heq, -, -⟩ := isChain_eraseReps a as
    simp [heq]

variable [Ord α]

theorem length_sortDedup_le (as : List α) : (sortDedup as).length ≤ as.length := by
  have := (eraseReps_sublist (as.insertionSort fun a b => (compare a b).isLE)).length_le
  simpa [sortDedup] using this

theorem sortDedup_eq_nil : sortDedup as = [] ↔ as = [] := by
  rw [sortDedup, eraseReps_eq_nil, ← List.length_eq_zero_iff, List.length_insertionSort,
    List.length_eq_zero_iff]

/-- Sorting and deduplicating twice changes nothing more. -/
theorem sortDedup_sortDedup [Std.TransOrd α] (as : List α) : sortDedup (sortDedup as) = sortDedup as := by
  have ht : Std.Total fun a b : α => (compare a b).isLE :=
    ⟨fun a b => by
      rcases h : compare a b with _ | _ | _
      · exact .inl rfl
      · exact .inl rfl
      · exact .inr (by rw [Std.OrientedCmp.gt_iff_lt.mp h]; rfl)⟩
  have htr : IsTrans α fun a b : α => (compare a b).isLE :=
    ⟨fun a b c hab hbc => Std.TransCmp.isLE_trans hab hbc⟩
  have hs : (sortDedup as).Pairwise fun a b => (compare a b).isLE :=
    (List.pairwise_insertionSort _ as).sublist (eraseReps_sublist _)
  have hc : (sortDedup as).IsChain (· ≠ ·) := by
    unfold sortDedup
    generalize as.insertionSort (fun a b => (compare a b).isLE) = bs
    cases bs with
    | nil => exact List.IsChain.nil
    | cons b bs =>
      obtain ⟨cs, heq, hc, -⟩ := isChain_eraseReps b bs
      rw [heq]
      exact hc
  unfold sortDedup at hs hc ⊢
  rw [hs.insertionSort_eq, eraseReps_of_isChain hc]

end SortDedup

end FocalDesk.Library
