import FocalDesk.Keyboard.Alternation

/-! Which presses the accessibility filter holds back, and which it lets out later. -/
namespace FocalDesk
open Library List

namespace KeyboardAccessibilityFilter

variable {filter : KeyboardAccessibilityFilter} {keycode k now : ℕ} {st : KeyState}
  {role : KeyRole} {out : FilterOutput}

/-- The press comes too soon after the release of its key. -/
def bounces (filter : KeyboardAccessibilityFilter) (keycode now : ℕ) : Bool :=
  filter.config.bounceKeys && filter.lastRelease[keycode]?.any fun releasedAt =>
    now - releasedAt < milliseconds filter.config.bounceKeysDelayMs

/-- A press would have to wait for its delay. -/
def holds (filter : KeyboardAccessibilityFilter) (keycode now : ℕ) : Bool :=
  filter.config.slowKeys && !filter.bounces keycode now && decide (keycode ∉ filter.pending)

theorem pending_applyPressed : (filter.applyPressed keycode role out).1.pending =
    filter.pending := by
  unfold applyPressed
  split
  · rfl
  · rfl

theorem pending_applyReleased : (filter.applyReleased keycode role now out).1.pending =
    filter.pending := by
  unfold applyReleased
  split
  · rfl
  · dsimp only
    split
    · rfl
    · split
      · rfl
      · rfl

theorem pending_applyAccepted {transition : KeyTransition} :
    (filter.applyAccepted transition role now out).1.pending = filter.pending := by
  unfold applyAccepted
  split
  · exact pending_applyPressed
  · exact pending_applyReleased

/-- Of the keys that wait after an event, only a press that was to be held is new. -/
theorem mem_pending_process (h : k ∈ (filter.process keycode st role now).1.pending) :
    k ∈ filter.pending ∨ k = keycode ∧ st = .pressed ∧ filter.holds keycode now := by
  obtain ⟨shiftTaps, lastShiftPress, ht⟩ := Alternating.track_eq filter st role now
  unfold process at h
  simp only [ht] at h
  cases st with
  | pressed =>
    dsimp only at h
    split_ifs at h with hbo hs
    · exact .inl h
    · rcases mem_insertIfNew_iff.mp h with rfl | hk
      · by_cases hp : k ∈ filter.pending
        · exact .inl hp
        · refine .inr ⟨rfl, rfl, ?_⟩
          have hq : filter.bounces k now = false := by
            rw [Bool.eq_false_iff]
            intro hb
            apply hbo
            simpa [bounces] using hb
          simp [holds, hs, hq, hp]
      · exact .inl hk
    · rw [pending_applyAccepted] at h
      exact .inl h
  | released =>
    dsimp only at h
    split_ifs at h with hr hp
    · exact .inl h
    · exact .inl (Std.ExtTreeMap.mem_of_mem_erase h)
    · rw [pending_applyAccepted] at h
      exact .inl h

theorem mem_events_applyPressed {transition : KeyTransition}
    (h : transition ∈ (filter.applyPressed keycode role out).2.events) :
    transition ∈ out.events ∨ transition.keycode = keycode := by
  unfold applyPressed at h
  split at h
  · rcases mem_append.mp h with h | h
    · exact .inl h
    · cases mem_singleton.mp h
      exact .inr rfl
  · rcases mem_append.mp h with h | h
    · exact .inl h
    · cases mem_singleton.mp h
      exact .inr rfl

/-- What is let out later is a key that was waiting, and no other key starts to wait. -/
theorem accept_spec (now : ℕ) (ready : List ReadyPress) (filter : KeyboardAccessibilityFilter)
    (out : FilterOutput) :
    (∀ k ∈ (accept now ready filter out).1.pending, k ∈ filter.pending) ∧
    ∀ transition ∈ (accept now ready filter out).2.events,
      transition ∈ out.events ∨ transition.keycode ∈ ready.map ReadyPress.keycode := by
  induction ready generalizing filter out with
  | nil => exact ⟨fun k hk => hk, fun transition ht => .inl ht⟩
  | cons press ready ih =>
    obtain ⟨hp, he⟩ := ih
      ({ filter with pending := filter.pending.erase press.keycode }.applyAccepted
        ⟨press.keycode, .pressed⟩ press.role now out).1
      ({ filter with pending := filter.pending.erase press.keycode }.applyAccepted
        ⟨press.keycode, .pressed⟩ press.role now out).2
    refine ⟨fun k hk => ?_, fun transition ht => ?_⟩
    · have ha := hp k hk
      rw [pending_applyAccepted] at ha
      exact Std.ExtTreeMap.mem_of_mem_erase ha
    · rcases he transition ht with hf | hl
      · exact (mem_events_applyPressed hf).imp_right fun heq => by simp [heq]
      · exact .inr (mem_cons_of_mem _ hl)

theorem mem_pending_of_ready {press : ReadyPress} (h : press ∈ filter.ready now) :
    press.keycode ∈ filter.pending := by
  have hp : (filter.ready now).Perm ((filter.pending.toList.filter fun e =>
      e.2.acceptedAt ≤ now).map fun e =>
        { acceptedAt := e.2.acceptedAt, keycode := e.1, role := e.2.role }) :=
    perm_insertionSort _ _
  obtain ⟨e, he, rfl⟩ := mem_map.mp (hp.mem_iff.mp h)
  have hg := Std.ExtTreeMap.mem_toList_iff_getElem?_eq_some.mp (mem_of_mem_filter he)
  exact mem_of_getElem? hg

theorem tick_spec (filter : KeyboardAccessibilityFilter) (now : ℕ) :
    (∀ k ∈ (filter.tick now).1.pending, k ∈ filter.pending) ∧
    ∀ transition ∈ (filter.tick now).2.events, transition.keycode ∈ filter.pending := by
  obtain ⟨hpe, he⟩ := accept_spec now (filter.ready now) filter .empty
  refine ⟨hpe, fun transition ht => ?_⟩
  rcases he transition ht with hn | hr
  · cases hn
  · obtain ⟨press, hp, heq⟩ := mem_map.mp hr
    rw [← heq]
    exact mem_pending_of_ready hp

end KeyboardAccessibilityFilter

end FocalDesk
