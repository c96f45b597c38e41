import Mathlib.Data.List.Basic

/-! Association lists in which a key is put once, and how many entries they count. -/
namespace FocalDesk.Library
open List Prod

variable {κ ν : Type*} [DecidableEq κ] {k j : κ} {v w : ν} {entries : List (κ × ν)}
  {p : κ × ν → Bool}

/-- The entries of the other keys. -/
def removeKey (k : κ) (entries : List (κ × ν)) : List (κ × ν) :=
  entries.filter fun entry => entry.1 ≠ k

/-- The entries with one key set to a value. -/
def putKey (k : κ) (v : ν) (entries : List (κ × ν)) : List (κ × ν) :=
  removeKey k entries ++ [(k, v)]

theorem mem_of_mem_putKey {e : κ × ν} (h : e ∈ putKey k v entries) :
    e = (k, v) ∨ e ∈ entries := by
  rcases mem_append.mp h with hold | hn
  · exact .inr (mem_filter.mp hold).1
  · exact .inl (mem_singleton.mp hn)

theorem mem_of_lookup (h : entries.lookup k = some v) : (k, v) ∈ entries := by
  obtain ⟨pre, after, rfl, -⟩ := lookup_eq_some_iff.mp h
  exact mem_append_right _ mem_cons_self

theorem lookup_removeKey_self : (removeKey k entries).lookup k = none := by
  rw [lookup_eq_none_iff]
  intro e he
  have hne : e.1 ≠ k := of_decide_eq_true (mem_filter.mp he).2
  simpa using hne.symm

theorem lookup_removeKey_of_ne (h : j ≠ k) :
    (removeKey k entries).lookup j = entries.lookup j := by
  induction entries with
  | nil => rfl
  | cons e entries ih =>
    obtain ⟨i, u⟩ := e
    unfold removeKey at ih ⊢
    by_cases hi : i = k
    · subst hi
      have hji : (j == i) = false := by simpa using h
      rw [filter_cons_of_neg (by simp), lookup_cons, hji, ih]
    · rw [filter_cons_of_pos (by simpa using hi), lookup_cons, lookup_cons, ih]

theorem lookup_putKey_self : (putKey k v entries).lookup k = some v := by
  simp [putKey, lookup_append, lookup_removeKey_self]

theorem lookup_putKey_of_ne (h : j ≠ k) : (putKey k v entries).lookup j = entries.lookup j := by
  have hjk : (j == k) = false := by simpa using h
  simp [putKey, lookup_append, lookup_removeKey_of_ne h, lookup_cons, hjk]

/-! What a key has. A list as a key has a test for equality of its own, and `getKey` does not use it. -/

/-- The value of a key. -/
def getKey (k : κ) (entries : List (κ × ν)) : Option ν := entries.lookup k

theorem getKey_removeKey_self : getKey k (removeKey k entries) = none := lookup_removeKey_self

theorem getKey_removeKey_of_ne (h : j ≠ k) : getKey j (removeKey k entries) = getKey j entries :=
  lookup_removeKey_of_ne h

theorem getKey_putKey_self : getKey k (putKey k v entries) = some v := lookup_putKey_self

theorem getKey_putKey_of_ne (h : j ≠ k) : getKey j (putKey k v entries) = getKey j entries :=
  lookup_putKey_of_ne h

theorem exists_getKey_of_mem (h : (k, v) ∈ entries) : ∃ w, getKey k entries = some w := by
  rcases hg : getKey k entries with _ | w
  · have hne := lookup_eq_none_iff.mp hg (k, v) h
    simp at hne
  · exact ⟨w, rfl⟩

theorem getKey_cons (k : κ) (e : κ × ν) (entries : List (κ × ν)) :
    getKey k (e :: entries) = if k = e.1 then some e.2 else getKey k entries := by
  unfold getKey
  obtain ⟨j, v⟩ := e
  by_cases hk : k = j
  · subst hk
    simp
  · have hne : (k == j) = false := by simpa using hk
    simp [lookup_cons, hne, hk]

theorem getKey_append (k : κ) (entries more : List (κ × ν)) :
    getKey k (entries ++ more) = (getKey k entries).or (getKey k more) := by
  unfold getKey
  exact lookup_append

/-- A filter that lets every entry of the key through. -/
theorem getKey_filter_of_forall (h : ∀ v, p (k, v)) :
    getKey k (entries.filter p) = getKey k entries := by
  induction entries with
  | nil => rfl
  | cons e entries ih =>
    obtain ⟨j, u⟩ := e
    by_cases hj : p (j, u)
    · rw [filter_cons_of_pos hj, getKey_cons, getKey_cons, ih]
    · have hne : k ≠ j := by
        rintro rfl
        exact hj (h u)
      rw [filter_cons_of_neg hj, getKey_cons, if_neg hne, ih]

/-- Every value changes in a way that its key decides. -/
theorem getKey_mapEntry {μ : Type*} (f : κ → ν → μ) (k : κ) (entries : List (κ × ν)) :
    getKey k (entries.map fun e => (e.1, f e.1 e.2)) = (getKey k entries).map (f k) := by
  induction entries with
  | nil => rfl
  | cons e entries ih =>
    rw [map_cons, getKey_cons, getKey_cons, ih]
    split
    · rename_i hk
      rw [hk]
      rfl
    · rfl

/-- All values change. -/
theorem getKey_map {μ : Type*} (f : ν → μ) (k : κ) (entries : List (κ × ν)) :
    getKey k (entries.map fun e => (e.1, f e.2)) = (getKey k entries).map f :=
  getKey_mapEntry (fun _ => f) k entries

theorem mem_of_getKey (h : getKey k entries = some v) : (k, v) ∈ entries := mem_of_lookup h

theorem getKey_of_not_mem (h : k ∉ entries.map fst) : getKey k entries = none := by
  rcases hg : getKey k entries with _ | v
  · rfl
  · exact absurd (mem_map_of_mem (mem_of_getKey hg)) h

theorem getKey_of_mem (hn : (entries.map fst).Nodup) (h : (k, v) ∈ entries) :
    getKey k entries = some v := by
  induction entries with
  | nil => cases h
  | cons e entries ih =>
    obtain ⟨hnw, hn⟩ := nodup_cons.mp hn
    rw [getKey_cons]
    obtain rfl | h := mem_cons.mp h
    · rw [if_pos rfl]
    · have hne : k ≠ e.1 := by
        intro hk
        exact hnw (mem_map.mpr ⟨_, h, hk⟩)
      rw [if_neg hne, ih hn h]

/-- Every value changes or goes. Each key has one entry. -/
theorem getKey_filterMap (f : ν → Option ν) (k : κ) (hn : (entries.map fst).Nodup) :
    getKey k (entries.filterMap fun e => (f e.2).map fun v => (e.1, v)) =
      (getKey k entries).bind f := by
  induction entries with
  | nil => rfl
  | cons e entries ih =>
    obtain ⟨hne, hn⟩ := nodup_cons.mp hn
    rw [filterMap_cons, getKey_cons]
    rcases hf : f e.2 with _ | w
    · simp only [Option.map_none]
      rw [ih hn]
      split
      · rename_i hk
        rw [getKey_of_not_mem (hk ▸ hne)]
        exact hf.symm
      · rfl
    · simp only [Option.map_some]
      rw [getKey_cons, ih hn]
      split
      · exact hf.symm
      · rfl

omit [DecidableEq κ] in
theorem nodup_keys_filterMap (f : ν → Option ν) (hn : (entries.map fst).Nodup) :
    ((entries.filterMap fun e => (f e.2).map fun v => (e.1, v)).map fst).Nodup := by
  refine hn.sublist ?_
  induction entries with
  | nil => exact Sublist.refl _
  | cons e entries ih =>
    have ih := ih (nodup_cons.mp hn).2
    rw [filterMap_cons]
    cases f e.2 with
    | none => exact ih.cons _
    | some w => exact ih.cons_cons _

theorem nodup_keys_putKey (hn : (entries.map fst).Nodup) :
    ((putKey k v entries).map fst).Nodup := by
  unfold putKey
  rw [map_append]
  refine nodup_append.mpr ⟨hn.sublist (filter_sublist.map _), by simp, ?_⟩
  intro j hj i hi
  obtain ⟨e, he, rfl⟩ := mem_map.mp hj
  obtain rfl : i = k := by simpa using hi
  exact of_decide_eq_true (mem_filter.mp he).2
/-! Counting. -/

theorem countP_removeKey_le : (removeKey k entries).countP p ≤ entries.countP p :=
  filter_sublist.countP_le

/-- What is found under a key is no longer counted without it. -/
theorem countP_removeKey_add (p : κ × ν → Bool) (h : entries.lookup k = some v) :
    (removeKey k entries).countP p + (if p (k, v) then 1 else 0) ≤ entries.countP p := by
  obtain ⟨pre, after, rfl, -⟩ := lookup_eq_some_iff.mp h
  have hp : (removeKey k pre).countP p ≤ pre.countP p := countP_removeKey_le
  have ha : (removeKey k after).countP p ≤ after.countP p := countP_removeKey_le
  simp only [removeKey, filter_append, countP_append, countP_cons] at *
  rw [filter_cons_of_neg (by simp)]
  omega

theorem countP_putKey :
    (putKey k v entries).countP p = (removeKey k entries).countP p + if p (k, v) then 1 else 0 := by
  simp [putKey, countP_cons]

theorem countP_putKey_le :
    (putKey k v entries).countP p ≤ entries.countP p + if p (k, v) then 1 else 0 := by
  rw [countP_putKey]
  exact Nat.add_le_add_right countP_removeKey_le _

/-- An entry that is counted no more than the one it takes the place of. -/
theorem countP_putKey_of_le (h : entries.lookup k = some v) (hle : p (k, w) → p (k, v)) :
    (putKey k w entries).countP p ≤ entries.countP p := by
  rw [countP_putKey]
  refine Nat.le_trans (Nat.add_le_add_left ?_ _) (countP_removeKey_add p h)
  by_cases hw : p (k, w)
  · exact Nat.le_of_eq ((if_pos hw).trans (if_pos (hle hw)).symm)
  · rw [if_neg hw]
    exact Nat.zero_le _

end FocalDesk.Library
