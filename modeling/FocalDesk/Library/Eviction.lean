import FocalDesk.Library.BTreeMap

/-! Making room in a bounded map: the entries of least rank go first. -/
namespace FocalDesk.Library
open Std.ExtTreeMap Prod

variable {κ ν : Type} [Ord κ] {limit fuel : ℕ} {rank : ν → ℕ} {key : ν → κ}
  {m : BTreeMap κ ν} {k k' : κ} {v v' : ν}

variable [Std.TransOrd κ]

/-- Every entry is stored under its own key. -/
def Keyed (key : ν → κ) (m : BTreeMap κ ν) : Prop := ∀ k v, m[k]? = some v → key v = k

/-- Removes entries of least rank while the map is full. Each round removes one, so the
number of entries bounds the rounds. -/
def evictOldest (limit : ℕ) (rank : ν → ℕ) (key : ν → κ) : ℕ → BTreeMap κ ν → BTreeMap κ ν
  | 0, m => m
  | fuel + 1, m =>
    if m.size < limit then m
    else
      match minByKey rank (m.toList.map Prod.snd) with
      | none => m
      | some oldest => evictOldest limit rank key fuel (m.erase (key oldest))

theorem evictOldest_of_room (h : m.size < limit) : evictOldest limit rank key fuel m = m := by
  cases fuel with
  | zero => rfl
  | succ fuel => simp [evictOldest, h]

/-- Eviction adds nothing. -/
theorem getElem?_of_evictOldest (h : (evictOldest limit rank key fuel m)[k]? = some v) :
    m[k]? = some v := by
  induction fuel generalizing m with
  | zero => exact h
  | succ fuel ih =>
    simp only [evictOldest] at h
    split at h
    · exact h
    · split at h
      · exact h
      · exact getElem?_of_erase (ih h)

theorem Keyed.erase (hk : Keyed key m) (k : κ) : Keyed key (m.erase k) := by
  intro j u h
  exact hk j u (getElem?_of_erase h)

variable [Std.LawfulEqOrd κ]

theorem getElem?_of_mem_values (hk : Keyed key m) (h : v ∈ m.toList.map snd) :
    m[key v]? = some v := by
  obtain ⟨⟨k, u⟩, hm, rfl⟩ := List.mem_map.mp h
  have hg : m[k]? = some u := mem_toList_iff_getElem?_eq_some.mp hm
  obtain rfl : key u = k := hk k u hg
  exact hg

theorem mem_values_of_getElem? (h : m[k]? = some v) : v ∈ m.toList.map snd :=
  List.mem_map.mpr ⟨(k, v), mem_toList_iff_getElem?_eq_some.mpr h, rfl⟩

theorem Keyed.insert (hk : Keyed key m) (v : ν) : Keyed key (m.insert (key v) v) := by
  intro j u h
  rw [getElem?_insert] at h
  split at h
  case isTrue heq =>
    cases h
    exact Std.LawfulEqCmp.eq_of_compare heq
  case isFalse => exact hk j u h

theorem getElem?_filter_eq_some {keep : κ → ν → Bool} :
    (m.filter keep)[k]? = some v ↔ m[k]? = some v ∧ keep k v := by
  rw [getElem?_filter', Option.filter_eq_some_iff]

theorem Keyed.filter (hk : Keyed key m) (keep : κ → ν → Bool) : Keyed key (m.filter keep) := by
  intro j u h
  exact hk j u (getElem?_filter_eq_some.mp h).1

theorem size_evictOldest_lt (hl : 0 < limit) (hk : Keyed key m) (hf : m.size ≤ fuel) :
    (evictOldest limit rank key fuel m).size < limit := by
  induction fuel generalizing m with
  | zero => simp only [evictOldest]; omega
  | succ fuel ih =>
    simp only [evictOldest]
    split
    · assumption
    · split
      case h_1 hr hn =>
        have he : m.toList.map snd = [] := by
          cases hv : m.toList.map snd with
          | nil => rfl
          | cons u us => rw [hv] at hn; cases hn
        have hle := congrArg List.length he
        simp only [List.length_map, length_toList, List.length_nil] at hle
        omega
      case h_2 hr oldest hs =>
        have hm := mem_of_getElem? (getElem?_of_mem_values hk (minByKey_mem hs))
        apply ih (hk.erase _)
        have hc : m.contains (key oldest) := hm
        rw [size_erase, if_pos hc]
        omega

/-- What is evicted is no younger than anything that is kept. -/
theorem rank_le_of_evictOldest (hke : Keyed key m) (hv : m[k]? = some v)
    (hg : (evictOldest limit rank key fuel m)[k]? = none)
    (hk : (evictOldest limit rank key fuel m)[k']? = some v') : rank v ≤ rank v' := by
  induction fuel generalizing m with
  | zero =>
    simp only [evictOldest] at hg
    rw [hg] at hv
    cases hv
  | succ fuel ih =>
    simp only [evictOldest] at hg hk
    split at hg
    case isTrue =>
      rw [hg] at hv
      cases hv
    case isFalse hf =>
      rw [if_neg hf] at hk
      split at hg
      case h_1 =>
        rw [hg] at hv
        cases hv
      case h_2 oldest hs =>
        rw [hs] at hk
        by_cases hold : key oldest = k
        · -- The entry of least rank is the one that goes in this round.
          have hge := getElem?_of_mem_values hke (minByKey_mem hs)
          rw [hold, hv] at hge
          cases hge
          exact minByKey_le hs v'
            (mem_values_of_getElem? (getElem?_of_erase (getElem?_of_evictOldest hk)))
        · apply ih (hke.erase _) ?_ hg hk
          rw [getElem?_erase, if_neg]
          · exact hv
          · intro heq
            exact hold (Std.LawfulEqCmp.eq_of_compare heq)

end FocalDesk.Library
