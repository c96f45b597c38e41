import FocalDesk.Keyboard.Filter
import Mathlib.Data.List.Induction

/-! The pause before a greeter is started again. -/
namespace FocalDesk.DisplayManager
open List

/-- An `Instant` counts nanoseconds; the first one may lie before the boot. -/
structure Backoff where
  lastSpawn : ℤ
  delay : ℕ

def shortestDelay : ℕ := milliseconds 200

def longestDelay : ℕ := milliseconds 10000

namespace Backoff

def new (now : ℤ) : Backoff := { lastSpawn := now - milliseconds 60000, delay := shortestDelay }

/-- `next_delay`: the clock is read at `now` for the elapsed time, and `lag` later once more. -/
def nextDelay (backoff : Backoff) (now : ℤ) (lag : ℕ) : Backoff :=
  { lastSpawn := now + lag
    delay :=
      if longestDelay < now - backoff.lastSpawn then shortestDelay
      else min (backoff.delay * 2) longestDelay }

end Backoff

/-- A round of the loop after its call of `next_delay`: the greeter's lifetime, unless the terminal
could not be switched, and all other time but the delay: late wakes, starts, ends, the session of
a user who logged in. -/
structure GreeterRound where
  lifetime : Option ℕ
  rest : ℕ
  lag : ℕ

namespace GreeterRound

def Healthy (round : GreeterRound) : Prop :=
  ∃ lived, round.lifetime = some lived ∧ longestDelay < lived

/-- What `next_delay` finds elapsed after the round. -/
def elapsed (round : GreeterRound) (backoff : Backoff) : ℕ :=
  backoff.delay + round.lifetime.getD 0 + round.rest

/-- The round, and the call of `next_delay` that begins the next one. -/
def pass (backoff : Backoff) (round : GreeterRound) : Backoff :=
  backoff.nextDelay (backoff.lastSpawn + round.elapsed backoff) round.lag

end GreeterRound

/-- The loop since its first call of `next_delay`. -/
def backoffAfter (started : ℤ) (waited lag : ℕ) (rounds : List GreeterRound) : Backoff :=
  rounds.foldl GreeterRound.pass ((Backoff.new started).nextDelay (started + waited) lag)

/-- How many greeters in a row lived at most ten seconds, up to now. -/
def shortLived (rounds : List GreeterRound) : ℕ :=
  ((rounds.filterMap GreeterRound.lifetime).reverse.takeWhile (· ≤ longestDelay)).length

/-- The delay that begins the next round doubled with each of these greeters, and is the shortest
one again after a healthy greeter only. -/
def BacksOff (rounds : List GreeterRound) (delay : ℕ) : Prop :=
  min (shortestDelay * 2 ^ shortLived rounds) longestDelay ≤ delay ∧
    ∀ before last, rounds = before ++ [last] → delay = shortestDelay → last.Healthy

variable {started : ℤ} {waited lag : ℕ} {rounds before : List GreeterRound} {round : GreeterRound}

theorem delay_nil : (backoffAfter started waited lag []).delay = shortestDelay := by
  refine if_pos ?_
  simp only [Backoff.new, longestDelay, milliseconds]
  omega

theorem delay_concat : (backoffAfter started waited lag (before ++ [round])).delay =
    if longestDelay < round.elapsed (backoffAfter started waited lag before) then shortestDelay
    else min ((backoffAfter started waited lag before).delay * 2) longestDelay := by
  have hp : backoffAfter started waited lag (before ++ [round]) =
      GreeterRound.pass (backoffAfter started waited lag before) round := foldl_concat ..
  have hs (spawn : ℤ) (n : ℕ) : spawn + n - spawn = n := by omega
  simp only [hp, GreeterRound.pass, Backoff.nextDelay, hs, Int.ofNat_lt]

theorem shortLived_concat_le : shortLived (before ++ [round]) ≤ shortLived before + 1 := by
  cases hl : round.lifetime with
  | none => simp [shortLived, hl]
  | some lived =>
    simp only [shortLived, filterMap_append, filterMap_cons, hl,
      filterMap_nil, reverse_append, reverse_singleton, singleton_append,
      takeWhile_cons]
    split
    · exact le_rfl
    · exact Nat.zero_le _

theorem GreeterRound.Healthy.shortLived_eq (h : round.Healthy) :
    shortLived (before ++ [round]) = 0 := by
  obtain ⟨lived, hl, hlo⟩ := h
  simp [shortLived, hl, hlo]

theorem BacksOff.shortest_le {delay : ℕ} (h : BacksOff rounds delay) : shortestDelay ≤ delay := by
  refine le_trans (le_min ?_ (by decide)) h.1
  exact Nat.le_mul_of_pos_right _ (Nat.two_pow_pos _)

theorem BacksOff.double {delay : ℕ} (h : BacksOff before delay) :
    BacksOff (before ++ [round]) (min (delay * 2) longestDelay) := by
  have hs := h.shortest_le
  refine ⟨le_min ?_ (min_le_right _ _), fun _ _ _ hd => absurd hd (ne_of_gt ?_)⟩
  · have hp : 2 ^ shortLived (before ++ [round]) ≤ 2 ^ (shortLived before + 1) :=
      Nat.pow_le_pow_right Nat.two_pos shortLived_concat_le
    have hb := h.1
    rw [pow_succ] at hp
    simp only [shortestDelay, longestDelay, milliseconds] at *
    omega
  · simp only [shortestDelay, longestDelay, milliseconds] at *
    omega

/-- The pauses double as they should exactly if more than ten seconds pass between two calls of
`next_delay` only where a greeter lived that long. The pause itself is part of that time. -/
theorem greeter_backoff_iff (started : ℤ) (waited lag : ℕ) (rounds : List GreeterRound) :
    (∀ before, before <+: rounds → BacksOff before (backoffAfter started waited lag before).delay) ↔
    ∀ before round, before ++ [round] <+: rounds →
      longestDelay < round.elapsed (backoffAfter started waited lag before) → round.Healthy := by
  constructor
  · intro h before round hp hl
    refine (h _ hp).2 before round rfl ?_
    rw [delay_concat, if_pos hl]
  · intro h before
    induction before using reverseRecOn with
    | nil =>
      intro _
      rw [delay_nil]
      exact ⟨by decide, by simp⟩
    | append_singleton before round ih =>
      intro hp
      have hb := ih ((prefix_append _ _).trans hp)
      rw [delay_concat]
      split
      · rename_i hl
        have hh := h before round hp hl
        refine ⟨?_, fun _ last hla _ => ?_⟩
        · rw [hh.shortLived_eq]
          decide
        · obtain ⟨-, hla⟩ := append_inj' hla rfl
          obtain rfl := singleton_inj.mp hla
          exact hh
      · exact hb.double

/-- A greeter that crashes at once is started again without a pause of note after the longest one,
which counts as its life. -/
theorem longest_delay_resets : ¬ ∀ (started : ℤ) (waited lag : ℕ) (rounds : List GreeterRound),
    BacksOff rounds (backoffAfter started waited lag rounds).delay := by
  intro h
  obtain ⟨hd, -⟩ := h 0 0 0 (replicate 7 ⟨some (milliseconds 1), 0, 0⟩)
  revert hd
  decide

end FocalDesk.DisplayManager
