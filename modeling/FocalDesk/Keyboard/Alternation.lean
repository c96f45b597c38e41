import FocalDesk.Keyboard.Stuck

/-! The transitions of each key alternate, unless the configuration changes under a key. -/
namespace FocalDesk
open Library KeyboardAccessibilityFilter KeyboardRun KeyTransition Finset

variable {filter : KeyboardAccessibilityFilter} {held down : Finset ℕ} {out : FilterOutput}
  {keycode now k j : ℕ} {role : KeyRole} {kb keyboard' : KeyboardRun}
  {event : KeyboardEvent} {config : KeyboardAccessibilitySettings} {ready : List ReadyPress}
  {events more : List KeyTransition} {ν : Type} {map : BTreeMap ℕ ν} {v : ν}

/-- Every transition is of a key that is in the other state. -/
def InTurn (down : Finset ℕ) : List KeyTransition → Prop
  | [] => True
  | transition :: events => (transition.state = .pressed ↔ transition.keycode ∉ down) ∧
      InTurn (transition.track down) events

/-- The states that a key's transitions should have, one after the other. -/
def Alternates (next : KeyState) : List KeyState → Prop
  | [] => True
  | state :: states => state = next ∧
      Alternates (match next with | .pressed => .released | .released => .pressed) states

/-- The states of the transitions of one key. -/
def statesOf (keycode : ℕ) (events : List KeyTransition) : List KeyState :=
  (events.filter fun transition => transition.keycode = keycode).map KeyTransition.state

theorem ordered_append : InTurn down (events ++ more) ↔
    InTurn down events ∧ InTurn (downAfter down events) more := by
  induction events generalizing down with
  | nil => simp [InTurn, downAfter]
  | cons transition events ih =>
    simp only [List.cons_append, InTurn, ih, downAfter, List.foldl_cons, and_assoc]

theorem ordered_released {keycodes : List ℕ} (hn : keycodes.Nodup) (hd : ∀ k ∈ keycodes, k ∈ down) :
    InTurn down (keycodes.map fun keycode => ⟨keycode, .released⟩) := by
  induction keycodes generalizing down with
  | nil => trivial
  | cons keycode keycodes ih =>
    obtain ⟨hne, hn⟩ := List.nodup_cons.mp hn
    refine ⟨iff_of_false nofun (not_not.mpr (hd keycode List.mem_cons_self)), ?_⟩
    apply ih hn
    intro k hk
    exact mem_erase.mpr ⟨ne_of_mem_of_not_mem hk hne, hd k (List.mem_cons_of_mem _ hk)⟩

theorem mem_track_of_ne {transition : KeyTransition} (h : transition.keycode ≠ k) :
    k ∈ transition.track down ↔ k ∈ down := by
  unfold track
  cases transition.state with
  | pressed => simp [Ne.symm h]
  | released => simp [Ne.symm h]

/-- The keys take turns on their own. -/
theorem InTurn.alternates (h : InTurn down events) (keycode : ℕ) :
    Alternates (if keycode ∈ down then .released else .pressed) (statesOf keycode events) := by
  induction events generalizing down with
  | nil => trivial
  | cons transition events ih =>
    obtain ⟨hst, hr⟩ := h
    have hn := ih hr
    by_cases hk : transition.keycode = keycode
    · have hs : statesOf keycode (transition :: events) =
          transition.state :: statesOf keycode events := by
        simp [statesOf, hk]
      rw [hs]
      rw [hk] at hst
      obtain ⟨key, st⟩ := transition
      obtain rfl : key = keycode := hk
      cases st with
      | pressed =>
        rw [if_neg (hst.mp rfl)]
        have hm : key ∈ track down ⟨key, .pressed⟩ := mem_insert_self key down
        rw [if_pos hm] at hn
        exact ⟨rfl, hn⟩
      | released =>
        have hm : key ∈ down := by
          by_contra hno
          cases hst.mpr hno
        rw [if_pos hm]
        have hno : key ∉ track down ⟨key, .released⟩ := notMem_erase key down
        rw [if_neg hno] at hn
        exact ⟨rfl, hn⟩
    · have hs : statesOf keycode (transition :: events) = statesOf keycode events := by
        simp [statesOf, hk]
      rw [hs]
      simpa only [mem_track_of_ne hk] using hn

theorem mem_downAfter_of_last (down : Finset ℕ) (events : List KeyTransition) (keycode : ℕ) :
    keycode ∈ downAfter down events ↔
      (statesOf keycode events).getLast?.getD (if keycode ∈ down then .pressed else .released) =
        .pressed := by
  induction events using List.reverseRecOn with
  | nil =>
    by_cases h : keycode ∈ down <;> simp [downAfter, statesOf, h]
  | append_singleton events transition ih =>
    rw [downAfter_append]
    by_cases hk : transition.keycode = keycode
    · obtain ⟨key, st⟩ := transition
      obtain rfl : key = keycode := hk
      have hs : statesOf key (events ++ [⟨key, st⟩]) = statesOf key events ++ [st] := by
        simp [statesOf]
      rw [hs, List.getLast?_concat]
      cases st with
      | pressed => simp [downAfter, track]
      | released => simp [downAfter, track]
    · have hs : statesOf keycode (events ++ [transition]) = statesOf keycode events := by
        simp [statesOf, hk]
      rw [hs, ← ih]
      exact mem_track_of_ne hk

/-! Maps. -/

theorem mem_erase_iff : k ∈ map.erase j ↔ k ≠ j ∧ k ∈ map := by
  rw [Std.ExtTreeMap.mem_erase, ne_eq, Std.LawfulEqCmp.compare_eq_iff_eq, eq_comm (a := j)]

theorem mem_insert_iff : k ∈ map.insert j v ↔ k = j ∨ k ∈ map := by
  rw [Std.ExtTreeMap.mem_insert, Std.LawfulEqCmp.compare_eq_iff_eq, eq_comm (a := j)]

theorem mem_insertIfNew_iff : k ∈ map.insertIfNew j v ↔ k = j ∨ k ∈ map := by
  rw [Std.ExtTreeMap.mem_insertIfNew, Std.LawfulEqCmp.compare_eq_iff_eq, eq_comm (a := j)]

/-! The invariant. -/

/-- A key is down when it is delivered or latched, and it is not both. -/
structure Sequenced (filter : KeyboardAccessibilityFilter) (held pressed : Finset ℕ) : Prop
    extends Tracked filter held pressed where
  up : ∀ k, k ∈ filter.deliveredDown ∨ k ∈ filter.latchedModifiers → k ∈ pressed
  apart : ∀ k ∈ filter.deliveredDown, k ∉ filter.latchedModifiers
  sticky : ∀ k ∈ filter.latchedModifiers, filter.config.stickyKeys = true
  roles : ∀ k ∈ filter.latchedModifiers, ∀ press, filter.pending[k]? = some press →
    press.role.isModifier = true

/-- Where a held key is. -/
def Placed (filter : KeyboardAccessibilityFilter) (k : ℕ) : Prop :=
  k ∈ filter.deliveredDown ∨ k ∈ filter.pending ∨ k ∈ filter.bounceRejectedDown ∨
    k ∈ filter.ignoreModifierRelease

/-- What there is between two calls. -/
structure Alternating (filter : KeyboardAccessibilityFilter) (held pressed : Finset ℕ) : Prop
    extends Sequenced filter held pressed where
  placed : ∀ k ∈ held, Placed filter k

namespace Sequenced

theorem notMem_down (h : Sequenced filter held down) (hd : k ∉ filter.deliveredDown)
    (hl : k ∉ filter.latchedModifiers) : k ∉ down :=
  fun hk => (h.down k hk).elim hd hl

/-- A press of a key that waits nowhere. -/
theorem applyPressed {events : List KeyTransition}
    (h : Sequenced filter held (downAfter down events)) (out : FilterOutput)
    (hou : out.events = events) (ho : InTurn down events) (hh : keycode ∈ held)
    (hp : keycode ∉ filter.pending) (hre : keycode ∉ filter.bounceRejectedDown)
    (hi : keycode ∉ filter.ignoreModifierRelease)
    (hd : keycode ∉ filter.deliveredDown)
    (hr : keycode ∈ filter.latchedModifiers → role.isModifier) :
    Sequenced (filter.applyPressed keycode role out).1 held
      (downAfter down (filter.applyPressed keycode role out).2.events) ∧
    InTurn down (filter.applyPressed keycode role out).2.events ∧
    ∀ k, k = keycode ∨ Placed filter k → Placed (filter.applyPressed keycode role out).1 k := by
  subst hou
  have ht : Tracked (filter.applyPressed keycode role out).1 held
      (downAfter down (filter.applyPressed keycode role out).2.events) :=
    h.toTracked.applyPressed hh hp hre hi
  unfold KeyboardAccessibilityFilter.applyPressed at ht ⊢
  by_cases hc : filter.config.stickyKeys ∧ role.isModifier ∧ keycode ∈ filter.latchedModifiers
  · rw [if_pos hc] at ht ⊢
    obtain ⟨-, -, hl⟩ := hc
    refine ⟨{ ht with up := ?_, apart := ?_, sticky := ?_, roles := ?_ }, ?_, ?_⟩
    · intro k hk
      rw [downAfter_append]
      apply mem_erase.mpr
      rcases hk with hk | hk
      · obtain ⟨hne, hk⟩ := (mem_erase_iff).mp hk
        exact ⟨hne, h.up k (.inl hk)⟩
      · obtain ⟨hne, hk⟩ := mem_erase.mp hk
        exact ⟨hne, h.up k (.inr hk)⟩
    · intro k hk hm
      exact h.apart k ((mem_erase_iff).mp hk).2 (mem_of_mem_erase hm)
    · exact fun k hk => h.sticky k (mem_of_mem_erase hk)
    · exact fun k hk => h.roles k (mem_of_mem_erase hk)
    · refine (ordered_append).mpr ⟨ho, ?_, trivial⟩
      exact iff_of_false nofun (not_not.mpr (h.up keycode (.inr hl)))
    · rintro k (rfl | hk | hk | hk | hk)
      · exact .inr (.inr (.inr (mem_insert_self k _)))
      · have hne : k ≠ keycode := by
          rintro rfl
          exact hd hk
        exact .inl ((mem_erase_iff).mpr ⟨hne, hk⟩)
      · exact .inr (.inl hk)
      · exact .inr (.inr (.inl hk))
      · exact .inr (.inr (.inr (mem_insert_of_mem hk)))
  · rw [if_neg hc] at ht ⊢
    have hl : keycode ∉ filter.latchedModifiers := fun hm =>
      hc ⟨h.sticky keycode hm, hr hm, hm⟩
    refine ⟨{ ht with up := ?_, apart := ?_, sticky := h.sticky, roles := h.roles }, ?_, ?_⟩
    · intro k hk
      rw [downAfter_append]
      apply mem_insert.mpr
      rcases hk with hk | hk
      · exact ((mem_insert_iff).mp hk).imp_right fun hk => h.up k (.inl hk)
      · exact .inr (h.up k (.inr hk))
    · intro k hk
      rcases (mem_insert_iff).mp hk with rfl | hk
      · exact hl
      · exact h.apart k hk
    · refine (ordered_append).mpr ⟨ho, ?_, trivial⟩
      exact iff_of_true rfl (h.notMem_down hd hl)
    · rintro k (rfl | hk | hk | hk | hk)
      · exact .inl ((mem_insert_iff).mpr (.inl rfl))
      · exact .inl ((mem_insert_iff).mpr (.inr hk))
      · exact .inr (.inl hk)
      · exact .inr (.inr (.inl hk))
      · exact .inr (.inr (.inr hk))

/-- A key that is released was delivered, or its press was not. -/
theorem applyReleased {events : List KeyTransition}
    (h : Sequenced filter held (downAfter down events)) (role : KeyRole) (now : ℕ)
    (out : FilterOutput) (hou : out.events = events) (ho : InTurn down events)
    (hpe : keycode ∉ filter.pending)
    (hrj : keycode ∉ filter.bounceRejectedDown)
    (hpl : keycode ∈ filter.deliveredDown ∨ keycode ∈ filter.ignoreModifierRelease) :
    Sequenced (filter.applyReleased keycode role now out).1 (held.erase keycode)
      (downAfter down (filter.applyReleased keycode role now out).2.events) ∧
    InTurn down (filter.applyReleased keycode role now out).2.events ∧
    ∀ k, k ≠ keycode → Placed filter k →
      Placed (filter.applyReleased keycode role now out).1 k := by
  subst hou
  have ht : Tracked (filter.applyReleased keycode role now out).1 (held.erase keycode)
      (downAfter down (filter.applyReleased keycode role now out).2.events) :=
    h.toTracked.applyReleased hpe hrj
  have hd : ∀ k ∈ filter.deliveredDown.erase keycode, k ∈ downAfter down out.events :=
    fun k hk => h.up k (.inl ((mem_erase_iff).mp hk).2)
  unfold KeyboardAccessibilityFilter.applyReleased at ht ⊢
  by_cases hi : keycode ∈ filter.ignoreModifierRelease
  · rw [if_pos hi] at ht ⊢
    refine ⟨{ ht with up := h.up, apart := h.apart, sticky := h.sticky, roles := h.roles }, ho, ?_⟩
    rintro k hne (hk | hk | hk | hk)
    · exact .inl hk
    · exact .inr (.inl hk)
    · exact .inr (.inr (.inl hk))
    · exact .inr (.inr (.inr (mem_erase.mpr ⟨hne, hk⟩)))
  · rw [if_neg hi] at ht ⊢
    have hm := hpl.resolve_right hi
    have hdo := h.up keycode (.inl hm)
    have hke : ∀ k, k ≠ keycode → Placed filter k → k ∈ filter.deliveredDown.erase keycode ∨
        k ∈ filter.pending ∨ k ∈ filter.bounceRejectedDown ∨ k ∈ filter.ignoreModifierRelease :=
      fun k hne hk => hk.imp_left fun hk => (mem_erase_iff).mpr ⟨hne, hk⟩
    dsimp only at ht ⊢
    by_cases hs : filter.config.stickyKeys ∧ role.isModifier
    · rw [if_pos hs] at ht ⊢
      refine ⟨{ ht with up := ?_, apart := ?_, sticky := ?_, roles := ?_ }, ho, hke⟩
      · rintro k (hk | hk)
        · exact hd k hk
        · rcases mem_insert.mp hk with rfl | hk
          · exact hdo
          · exact h.up k (.inr hk)
      · intro k hk hla
        obtain ⟨hne, hk⟩ := (mem_erase_iff).mp hk
        exact h.apart k hk ((mem_insert.mp hla).resolve_left hne)
      · exact fun k _ => hs.1
      · intro k hk press hp
        rcases mem_insert.mp hk with rfl | hk
        · exact absurd (mem_of_getElem? hp) hpe
        · exact h.roles k hk press hp
    · rw [if_neg hs] at ht ⊢
      have hr : InTurn down (out.events ++ [⟨keycode, .released⟩]) :=
        (ordered_append).mpr ⟨ho, iff_of_false nofun (not_not.mpr hdo), trivial⟩
      have hst : ∀ k, k ∈ filter.deliveredDown.erase keycode ∨ k ∈ filter.latchedModifiers →
          k ∈ downAfter down (out.events ++ [⟨keycode, .released⟩]) := by
        intro k hk
        rw [downAfter_append]
        apply mem_erase.mpr
        rcases hk with hk | hk
        · exact ⟨((mem_erase_iff).mp hk).1, hd k hk⟩
        · refine ⟨?_, h.up k (.inr hk)⟩
          rintro rfl
          exact h.apart k hm hk
      by_cases hc : filter.consumeLatchesAfter = some keycode
      · rw [if_pos hc] at ht ⊢
        have hl : ∀ k, k ∈ filter.latchedModifiers.sort (· ≤ ·) ↔
            k ∈ filter.latchedModifiers := fun k => mem_sort _
        have hre : ∀ k, k ∈ (filter.latchedModifiers.sort (· ≤ ·)).foldl
            (fun down keycode => down.erase keycode) (filter.deliveredDown.erase keycode) ↔
              k ∈ filter.deliveredDown.erase keycode ∧ k ∉ filter.latchedModifiers := by
          intro k
          rw [mem_foldl_erase, hl]
        refine ⟨{ ht with up := ?_, apart := ?_, sticky := ?_, roles := ?_ }, ?_, ?_⟩
        · rintro k (hk | hk)
          · obtain ⟨hk, hn⟩ := (hre k).mp hk
            simp only [consumeLatches]
            rw [downAfter_append, mem_downAfter_released, hl]
            exact ⟨hst k (.inl hk), hn⟩
          · exact absurd hk (notMem_empty k)
        · exact fun k _ => notMem_empty k
        · exact fun k hk => absurd hk (notMem_empty k)
        · exact fun k hk => absurd hk (notMem_empty k)
        · simp only [consumeLatches]
          refine (ordered_append).mpr ⟨hr, ordered_released (sort_nodup _ _) ?_⟩
          exact fun k hk => hst k (.inr ((hl k).mp hk))
        · intro k hne hk
          rcases hke k hne hk with hk | hk
          · refine .inl ((hre k).mpr ⟨hk, h.apart k ((mem_erase_iff).mp hk).2⟩)
          · exact .inr hk
      · rw [if_neg hc] at ht ⊢
        refine ⟨{ ht with up := hst, apart := ?_, sticky := h.sticky, roles := h.roles }, hr, hke⟩
        exact fun k hk => h.apart k ((mem_erase_iff).mp hk).2

end Sequenced

namespace Alternating

theorem new (config : KeyboardAccessibilitySettings) : Alternating (.new config) ∅ ∅ where
  toTracked := Tracked.new config ∅
  up := by simp [KeyboardAccessibilityFilter.new]
  apart := by simp [KeyboardAccessibilityFilter.new]
  sticky := by simp [KeyboardAccessibilityFilter.new]
  roles := by simp [KeyboardAccessibilityFilter.new]
  placed := by simp

/-- The shortcut only counts presses. -/
theorem track_eq (filter : KeyboardAccessibilityFilter) (st : KeyState) (role : KeyRole) (now : ℕ)
    : ∃ shiftTaps lastShiftPress, (filter.trackStickyShortcut st role now).1
      = { filter with shiftTaps, lastShiftPress } := by
  unfold trackStickyShortcut
  split
  · exact ⟨_, _, rfl⟩
  · split
    · exact ⟨_, _, rfl⟩
    · dsimp only
      split <;> split <;> exact ⟨_, _, rfl⟩

theorem pressed (h : Alternating filter held down) (hke : keycode ∉ held)
    (hr : keycode ∈ filter.latchedModifiers → role.isModifier) :
    Alternating (filter.process keycode .pressed role now).1 (insert keycode held)
      (downAfter down (filter.process keycode .pressed role now).2.events) ∧
    InTurn down (filter.process keycode .pressed role now).2.events := by
  have ht : Tracked (filter.process keycode .pressed role now).1 (insert keycode held)
      (downAfter down (filter.process keycode .pressed role now).2.events) :=
    h.toTracked.pressed hke
  obtain ⟨hpe, hre, hi, hd⟩ := h.toTracked.fresh hke
  obtain ⟨shiftTaps, lastShiftPress, htr⟩ := track_eq filter .pressed role now
  have hold : ∀ {after : KeyboardAccessibilityFilter}, Placed after keycode →
      (∀ k, Placed filter k → Placed after k) → ∀ k ∈ insert keycode held, Placed after k := by
    intro after hp hm k hk
    rcases mem_insert.mp hk with rfl | hk
    · exact hp
    · exact hm k (h.placed k hk)
  unfold process at ht ⊢
  dsimp only at ht ⊢
  rw [htr] at ht ⊢
  split at ht
  case isTrue hb =>
    rw [if_pos hb]
    refine ⟨{ ht with
      up := h.up, apart := h.apart, sticky := h.sticky, roles := h.roles, placed := ?_ }, trivial⟩
    refine hold (.inr (.inr (.inl (mem_insert_self keycode _)))) fun k hk => ?_
    exact hk.imp_right (Or.imp_right (Or.imp_left mem_insert_of_mem))
  case isFalse hb =>
    rw [if_neg hb]
    by_cases hs : filter.config.slowKeys
    · rw [if_pos hs] at ht ⊢
      refine ⟨{ ht with
        up := h.up, apart := h.apart, sticky := h.sticky, roles := ?_, placed := ?_ }, trivial⟩
      · intro k hk press hpr
        rw [Std.ExtTreeMap.getElem?_insertIfNew] at hpr
        split at hpr
        case isTrue hn =>
          obtain rfl := Std.LawfulEqCmp.eq_of_compare hn.1
          cases hpr
          exact hr hk
        case isFalse hold => exact h.roles k hk press hpr
      · refine hold (.inr (.inl ((mem_insertIfNew_iff).mpr (.inl rfl)))) fun k hk => ?_
        exact hk.imp_right (Or.imp_left fun hk => (mem_insertIfNew_iff).mpr (.inr hk))
    · rw [if_neg hs] at ht ⊢
      have hse : Sequenced { filter with shiftTaps, lastShiftPress } (insert keycode held)
          (downAfter down []) :=
        { h.toTracked.hold keycode with
          up := h.up, apart := h.apart, sticky := h.sticky, roles := h.roles }
      obtain ⟨ha, ho, hp⟩ := hse.applyPressed
        { FilterOutput.empty with feedback := (filter.trackStickyShortcut .pressed role now).2 }
        rfl trivial (mem_insert_self keycode held) hpe hre hi hd hr
      exact ⟨{ ha with
        placed := hold (hp keycode (.inl rfl)) fun k hk => hp k (.inr hk) }, ho⟩

theorem released (h : Alternating filter held down) (hke : keycode ∈ held) :
    Alternating (filter.process keycode .released role now).1 (held.erase keycode)
      (downAfter down (filter.process keycode .released role now).2.events) ∧
    InTurn down (filter.process keycode .released role now).2.events := by
  have ht : Tracked (filter.process keycode .released role now).1 (held.erase keycode)
      (downAfter down (filter.process keycode .released role now).2.events) :=
    h.toTracked.released
  obtain ⟨shiftTaps, lastShiftPress, htr⟩ := track_eq filter .released role now
  have ho : ∀ {after : KeyboardAccessibilityFilter},
      (∀ k, k ≠ keycode → Placed filter k → Placed after k) →
        ∀ k ∈ held.erase keycode, Placed after k := by
    intro after hm k hk
    obtain ⟨hne, hk⟩ := mem_erase.mp hk
    exact hm k hne (h.placed k hk)
  unfold process at ht ⊢
  dsimp only at ht ⊢
  rw [htr] at ht ⊢
  by_cases hr : keycode ∈ filter.bounceRejectedDown
  · rw [if_pos hr] at ht ⊢
    refine ⟨{ ht with
      up := h.up, apart := h.apart, sticky := h.sticky, roles := h.roles, placed := ?_ }, trivial⟩
    refine ho fun k hne hk => ?_
    exact hk.imp_right (Or.imp_right (Or.imp_left fun hk => mem_erase.mpr ⟨hne, hk⟩))
  · rw [if_neg hr] at ht ⊢
    by_cases hp : keycode ∈ filter.pending
    · rw [if_pos hp] at ht ⊢
      refine ⟨{ ht with
        up := h.up, apart := h.apart, sticky := h.sticky, roles := ?_, placed := ?_ }, trivial⟩
      · exact fun k hk press hpr => h.roles k hk press (getElem?_of_erase hpr)
      · refine ho fun k hne hk => ?_
        exact hk.imp_right (Or.imp_left fun hk => (mem_erase_iff).mpr ⟨hne, hk⟩)
    · rw [if_neg hp] at ht ⊢
      have hpa : keycode ∈ filter.deliveredDown ∨ keycode ∈ filter.ignoreModifierRelease := by
        rcases h.placed keycode hke with hk | hk | hk | hk
        · exact .inl hk
        · exact absurd hk hp
        · exact absurd hk hr
        · exact .inr hk
      have hs : Sequenced { filter with shiftTaps, lastShiftPress } held (downAfter down []) :=
        { h.toTracked with up := h.up, apart := h.apart, sticky := h.sticky, roles := h.roles }
      obtain ⟨ha, hor, hpl⟩ := hs.applyReleased
        (filter.deliveredDown[keycode]?.getD role) now
        { FilterOutput.empty with feedback := (filter.trackStickyShortcut .released role now).2 }
        rfl trivial hp hr hpa
      exact ⟨{ ha with placed := ho hpl }, hor⟩

theorem accept (h : Alternating filter held (downAfter down out.events))
    (hor : InTurn down out.events) (hn : (ready.map ReadyPress.keycode).Nodup)
    (hr : ∀ press ∈ ready, filter.pending[press.keycode]? = some ⟨press.acceptedAt, press.role⟩) :
    Alternating (KeyboardAccessibilityFilter.accept now ready filter out).1 held
      (downAfter down (KeyboardAccessibilityFilter.accept now ready filter out).2.events) ∧
    InTurn down (KeyboardAccessibilityFilter.accept now ready filter out).2.events := by
  induction ready generalizing filter out with
  | nil => exact ⟨h, hor⟩
  | cons press ready ih =>
    obtain ⟨hnw, hn⟩ := List.nodup_cons.mp hn
    have hp := hr press List.mem_cons_self
    have hm := mem_of_getElem? hp
    obtain ⟨hh, hd⟩ := h.pending _ hm
    have he : ∀ k ∈ filter.pending.erase press.keycode, k ∈ filter.pending :=
      fun k hk => ((mem_erase_iff).mp hk).2
    have hse : Sequenced { filter with pending := filter.pending.erase press.keycode } held
        (downAfter down out.events) :=
      { down := h.down
        delivered := h.delivered
        pending := fun k hk => h.pending k (he k hk)
        rejected := fun k hk => (h.rejected k hk).imp_right
          (And.imp_right fun hno hin => hno (he k hin))
        ignored := fun k hk => (h.ignored k hk).imp_right
          (And.imp_right (And.imp_left fun hno hin => hno (he k hin)))
        up := h.up
        apart := h.apart
        sticky := h.sticky
        roles := fun k hk other ho => h.roles k hk other (getElem?_of_erase ho) }
    have hg : press.keycode ∉ filter.pending.erase press.keycode :=
      fun hin => ((mem_erase_iff).mp hin).1 rfl
    obtain ⟨ha, hor, hpl⟩ := hse.applyPressed out rfl hor hh hg
      (fun hre => (h.rejected _ hre).2.2 hm)
      (fun hi => (h.ignored _ hi).2.2.1 hm) hd
      fun hl => h.roles _ hl _ hp
    refine ih { ha with placed := ?_ } hor hn ?_
    · intro k hk
      apply hpl
      by_cases hs : k = press.keycode
      · exact .inl hs
      · refine .inr ((h.placed k hk).imp_right (Or.imp_left fun hk => ?_))
        exact (mem_erase_iff).mpr ⟨hs, hk⟩
    · intro other ho
      have hne : press.keycode ≠ other.keycode := by
        intro heq
        exact hnw (heq ▸ List.mem_map_of_mem ho)
      have hpe : (filter.pending.erase press.keycode)[other.keycode]? =
          some ⟨other.acceptedAt, other.role⟩ := by
        rw [Std.ExtTreeMap.getElem?_erase, if_neg fun heq => hne (Std.LawfulEqCmp.eq_of_compare heq)]
        exact hr other (List.mem_cons_of_mem _ ho)
      simp only [applyAccepted, KeyboardAccessibilityFilter.applyPressed]
      split <;> exact hpe

theorem tick (h : Alternating filter held down) :
    Alternating (filter.tick now).1 held (downAfter down (filter.tick now).2.events) ∧
      InTurn down (filter.tick now).2.events := by
  have hp : (filter.ready now).Perm ((filter.pending.toList.filter fun e =>
      e.2.acceptedAt ≤ now).map fun e =>
        { acceptedAt := e.2.acceptedAt, keycode := e.1, role := e.2.role }) :=
    List.perm_insertionSort _ _
  have he : InTurn down FilterOutput.empty.events := trivial
  apply accept h he
  · refine (hp.map _).nodup_iff.mpr ?_
    rw [List.map_map]
    have hk : (filter.pending.toList.map Prod.fst).Nodup := by
      rw [Std.ExtTreeMap.map_fst_toList_eq_keys]
      exact Std.ExtTreeMap.nodup_keys
    exact hk.sublist (List.filter_sublist.map _)
  · intro press hpr
    obtain ⟨e, hen, rfl⟩ := List.mem_map.mp (hp.mem_iff.mp hpr)
    exact Std.ExtTreeMap.mem_toList_iff_getElem?_eq_some.mp (List.mem_of_mem_filter hen)

/-- A change with all keys up has nothing to release. -/
theorem reconfigure (h : Alternating filter ∅ down) (hl : filter.latchedModifiers = ∅)
    (hc : filter.config ≠ config.sanitized) :
    Alternating (filter.reconfigure config).1 ∅ (downAfter down (filter.reconfigure config).2) ∧
      InTurn down (filter.reconfigure config).2 := by
  have hn : filter.deliveredDown.keys = [] := by
    rw [List.eq_nil_iff_forall_not_mem]
    intro k hk
    exact notMem_empty k (h.delivered k (Std.ExtTreeMap.mem_keys.mp hk))
  have hup : down = ∅ := by
    rw [eq_empty_iff_forall_notMem]
    intro k hk
    rcases h.down k hk with hk | hk
    · exact notMem_empty k (h.delivered k hk)
    · rw [hl] at hk
      exact notMem_empty k hk
  rw [KeyboardAccessibilityFilter.reconfigure, if_neg hc]
  simp only [releaseAll, hn, List.map_nil, hup]
  refine ⟨⟨⟨?_, ?_, ?_, ?_, ?_⟩, ?_⟩, trivial⟩
  · constructor <;> simp [downAfter]
  · simp
  · simp
  · simp
  · simp
  · simp

end Alternating

namespace KeyboardRun

/-- A change of the configuration finds all keys up and none latched, and a latched key is pressed
as the modifier it is. -/
def AllUp (run : KeyboardRun) : KeyboardEvent → Prop
  | .process keycode .pressed role _ =>
    keycode ∈ run.filter.latchedModifiers → role.isModifier = true
  | .process _ .released _ _ => True
  | .tick _ => True
  | .reconfigure config => run.filter.config ≠ config.sanitized →
      run.held = ∅ ∧ run.filter.latchedModifiers = ∅

instance (run : KeyboardRun) : (event : KeyboardEvent) → Decidable (run.AllUp event)
  | .process _ .pressed _ _ => inferInstanceAs (Decidable (_ → _))
  | .process _ .released _ _ => isTrue trivial
  | .tick _ => isTrue trivial
  | .reconfigure _ => inferInstanceAs (Decidable (_ → _))

/-- The transitions so far are in order, and the filter knows what they left down. -/
def InOrder (run : KeyboardRun) : Prop :=
  Alternating run.filter run.held run.downstream ∧ InTurn ∅ run.emitted

theorem step_inOrder (hs : kb.step event = some keyboard') (hup : kb.AllUp event) (h : kb.InOrder)
    : keyboard'.InOrder := by
  obtain ⟨h, ho⟩ := h
  have he (held : Finset ℕ) (filter : KeyboardAccessibilityFilter) (events : List KeyTransition)
      (ha : Alternating filter held (downAfter kb.downstream events) ∧
        InTurn kb.downstream events) :
      InOrder { filter, held, emitted := kb.emitted ++ events } := by
    refine ⟨?_, (ordered_append).mpr ⟨ho, ha.2⟩⟩
    rw [downstream, downAfter_append]
    exact ha.1
  cases event with
  | process keycode st role now =>
    cases st with
    | pressed =>
      simp only [step, Option.ite_none_left_eq_some] at hs
      obtain ⟨hk, hs⟩ := hs
      cases hs
      exact he _ _ _ (h.pressed hk hup)
    | released =>
      simp only [step, Option.ite_none_right_eq_some] at hs
      obtain ⟨hk, hs⟩ := hs
      cases hs
      exact he _ _ _ (h.released hk)
  | tick now =>
    cases hs
    exact he _ _ _ h.tick
  | reconfigure config =>
    cases hs
    by_cases hc : kb.filter.config = config.sanitized
    · simpa [InOrder, KeyboardRun.reconfigure, KeyboardAccessibilityFilter.reconfigure, hc,
        downstream] using And.intro h ho
    · obtain ⟨hh, hl⟩ := hup hc
      apply he
      rw [hh] at h ⊢
      exact h.reconfigure hl hc

end KeyboardRun

/-- In every run whose changes of the configuration find all keys up, the transitions of each key
are presses and releases in turn, from a press on, and the last one of a latched key is a press. -/
theorem transitions_alternate (config : KeyboardAccessibilitySettings) (events : List KeyboardEvent)
    (final : KeyboardRun) (hup : Meets step AllUp (.start config ∅) events)
    (hrun : run step (.start config ∅) events = some final) :
    (∀ keycode, Alternates .pressed (statesOf keycode final.emitted)) ∧
      ∀ keycode ∈ final.filter.latchedModifiers,
        (statesOf keycode final.emitted).getLast? = some .pressed := by
  have hst : (KeyboardRun.start config ∅).InOrder := ⟨Alternating.new config, trivial⟩
  obtain ⟨h, ho⟩ := run_invariant_of_meets step_inOrder hup hrun hst
  constructor
  · intro keycode
    have ha := ho.alternates keycode
    rwa [if_neg (notMem_empty keycode)] at ha
  · intro keycode hla
    have hl := (mem_downAfter_of_last ∅ final.emitted keycode).mp (h.up keycode (.inr hla))
    rw [if_neg (notMem_empty keycode)] at hl
    rcases hs : (statesOf keycode final.emitted).getLast? with _ | st
    · rw [hs] at hl
      cases hl
    · rw [hs] at hl
      exact congrArg some hl

theorem transitions_alternate_sample :
    Meets step AllUp (.start stickyConfig ∅) (stickyEvents ++ [.process 30 .pressed .other 4]) ∧
      ∃ final, run step (.start stickyConfig ∅)
          (stickyEvents ++ [.process 30 .pressed .other 4]) = some final ∧
        final.emitted.length = 5 ∧
        ∀ keycode, Alternates .pressed (statesOf keycode final.emitted) := by
  obtain ⟨hup, final, hr, he⟩ : Meets step AllUp (.start stickyConfig ∅)
      (stickyEvents ++ [.process 30 .pressed .other 4]) ∧ ∃ final, run step
        (.start stickyConfig ∅) (stickyEvents ++ [.process 30 .pressed .other 4]) = some final ∧
          decide (final.emitted.length = 5) = true := exists_run_of_checked (by decide +kernel)
  exact ⟨hup, final, hr, of_decide_eq_true he,
    (transitions_alternate stickyConfig _ final hup hr).1⟩

/-- A letter is pressed, the configuration changes, and the letter is released. -/
def changeUnderKey : List KeyboardEvent :=
  [.process 30 .pressed .other 0, .reconfigure stickyConfig, .process 30 .released .other 1]

/-- The key is released once by the change and once more by itself. -/
theorem released_twice :
    ¬ ∀ (config : KeyboardAccessibilitySettings) (events : List KeyboardEvent)
      (final : KeyboardRun), run step (.start config ∅) events = some final →
        ∀ keycode, Alternates .pressed (statesOf keycode final.emitted) := by
  intro h
  obtain ⟨final, hr, hs⟩ : ∃ final, run step (.start .default ∅) changeUnderKey =
      some final ∧ decide (statesOf 30 final.emitted = [.pressed, .released, .released]) = true :=
    exists_run_of_any (by decide +kernel)
  have ha := h .default _ final hr 30
  rw [of_decide_eq_true hs] at ha
  exact absurd ha.2.2.1 nofun

end FocalDesk
