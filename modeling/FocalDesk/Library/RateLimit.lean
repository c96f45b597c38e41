import Mathlib.Data.List.Perm.Subperm

/-! Times that keep a distance from each other and a bound on each window. -/
namespace FocalDesk.Library
open List

variable {cooldown limit win now : ℕ} {times recent : List ℕ}

def inside (window start time : ℕ) : Bool := decide (start ≤ time) && decide (time < start + window)

structure RateLimited (cooldown limit window : ℕ) (times : List ℕ) : Prop where
  distance : times.Pairwise fun earlier later => earlier + cooldown ≤ later
  bounded : ∀ start, times.countP (inside window start) ≤ limit

theorem rateLimited_nil : RateLimited cooldown limit win [] := ⟨.nil, fun _ => Nat.zero_le _⟩

/-- A time that the recent ones allow may follow. -/
theorem RateLimited.snoc (h : RateLimited cooldown limit win times)
    (hp : ∀ time ∈ times, time ≤ now) (hd : ∀ time ∈ times, cooldown ≤ now - time)
    (hb : times.countP (fun time => decide (now - time < win)) < limit) :
    RateLimited cooldown limit win (times ++ [now]) := by
  constructor
  · rw [pairwise_append]
    refine ⟨h.distance, pairwise_singleton _ _, ?_⟩
    intro time hm last hl
    obtain rfl := mem_singleton.mp hl
    have := hp time hm
    have := hd time hm
    omega
  · intro start
    rw [countP_append]
    by_cases hin : inside win start now
    · -- The other times of the window are among the recent ones.
      have hle : times.countP (inside win start) ≤
          times.countP (fun time => decide (now - time < win)) := by
        apply countP_mono_left
        intro time _ ht
        simp only [inside, Bool.and_eq_true, decide_eq_true_eq] at hin ht ⊢
        omega
      have ho : [now].countP (inside win start) = 1 := by simp [hin]
      omega
    · have hz : [now].countP (inside win start) = 0 := by simp [hin]
      have := h.bounded start
      omega

/-- A memory that holds every time a limit still needs decides as the whole history would. -/
theorem RateLimited.snoc_of_recalled (h : RateLimited cooldown limit win times)
    (hp : ∀ time ∈ times, time ≤ now)
    (hr : (times.filter fun time => decide (now - time < max cooldown win)).Subperm recent)
    (hd : ∀ time ∈ recent, cooldown ≤ now - time)
    (hb : recent.countP (fun time => decide (now - time < win)) < limit) :
    RateLimited cooldown limit win (times ++ [now]) := by
  refine h.snoc hp ?_ ?_
  · intro time hm
    by_contra hc
    have hre : time ∈ times.filter fun time => decide (now - time < max cooldown win) := by
      rw [mem_filter, decide_eq_true_eq]
      exact ⟨hm, by omega⟩
    exact hc (hd time (hr.subset hre))
  · have hco : times.countP (fun time => decide (now - time < win)) =
        (times.filter fun time => decide (now - time < max cooldown win)).countP
          (fun time => decide (now - time < win)) := by
      rw [countP_filter]
      apply countP_congr
      intro time _
      simp only [Bool.and_eq_true, decide_eq_true_eq]
      omega
    rw [hco]
    exact Nat.lt_of_le_of_lt (hr.countP_le _) hb

end FocalDesk.Library
