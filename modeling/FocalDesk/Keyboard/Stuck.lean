import FocalDesk.Keyboard.Filter
import FocalDesk.Library.Transition

/-! No key of the accessibility filter is stuck: what is down downstream is held or latched. -/
namespace FocalDesk
open Library KeyboardAccessibilityFilter Std.ExtTreeMap

/-- The keys that are down downstream after one more transition. -/
def KeyTransition.track (down : Finset ℕ) (transition : KeyTransition) : Finset ℕ :=
  match transition.state with
  | .pressed => insert transition.keycode down
  | .released => down.erase transition.keycode

/-- The keys whose last transition is a press. -/
def downAfter (down : Finset ℕ) (events : List KeyTransition) : Finset ℕ :=
  events.foldl KeyTransition.track down

/-- A filter with the keys that are physically held and what it has emitted. -/
structure KeyboardRun where
  filter : KeyboardAccessibilityFilter
  held : Finset ℕ
  emitted : List KeyTransition

inductive KeyboardEvent where
  | process (keycode : ℕ) (state : KeyState) (role : KeyRole) (now : ℕ)
  | tick (now : ℕ)
  | reconfigure (config : KeyboardAccessibilitySettings)

variable {filter : KeyboardAccessibilityFilter} {held down : Finset ℕ} {out : FilterOutput}
  {keycode now : ℕ} {role : KeyRole} {kb keyboard' : KeyboardRun} {event : KeyboardEvent}
  {config : KeyboardAccessibilitySettings} {ready : List ReadyPress}

namespace KeyboardRun

def start (config : KeyboardAccessibilitySettings) (held : Finset ℕ) : KeyboardRun :=
  { filter := .new config, held, emitted := [] }

def downstream (run : KeyboardRun) : Finset ℕ := downAfter ∅ run.emitted

def emit (run : KeyboardRun) (held : Finset ℕ) (after : KeyboardAccessibilityFilter × FilterOutput)
    : KeyboardRun :=
  { filter := after.1, held, emitted := run.emitted ++ after.2.events }

def reconfigure (run : KeyboardRun) (config : KeyboardAccessibilitySettings) : KeyboardRun :=
  { run with
    filter := (run.filter.reconfigure config).1
    emitted := run.emitted ++ (run.filter.reconfigure config).2 }

/-- A key is pressed when it is not held, and released when it is. -/
def step (run : KeyboardRun) : KeyboardEvent → Option KeyboardRun
  | .process keycode .pressed role now =>
    if keycode ∈ run.held then none
    else some (run.emit (insert keycode run.held) (run.filter.process keycode .pressed role now))
  | .process keycode .released role now =>
    if keycode ∈ run.held then
      some (run.emit (run.held.erase keycode) (run.filter.process keycode .released role now))
    else none
  | .tick now => some (run.emit run.held (run.filter.tick now))
  | .reconfigure config => some (run.reconfigure config)

/-- A change of the configuration meets no latched modifier that is down downstream and not
recorded as delivered. -/
def NoneLatched (run : KeyboardRun) : KeyboardEvent → Prop
  | .reconfigure config => run.filter.config ≠ config.sanitized →
      ∀ keycode ∈ run.filter.latchedModifiers, keycode ∈ run.downstream →
        keycode ∈ run.filter.deliveredDown
  | _ => True

instance (run : KeyboardRun) : (event : KeyboardEvent) → Decidable (run.NoneLatched event)
  | .process .. => isTrue trivial
  | .tick .. => isTrue trivial
  | .reconfigure _ => inferInstanceAs (Decidable (_ → ∀ keycode ∈ _, _ → _))

end KeyboardRun

/-- What is down is delivered or latched, delivered keys are held, and each held key is in one
place only. -/
structure Tracked (filter : KeyboardAccessibilityFilter) (held down : Finset ℕ) : Prop where
  down : ∀ k ∈ down, k ∈ filter.deliveredDown ∨ k ∈ filter.latchedModifiers
  delivered : ∀ k ∈ filter.deliveredDown, k ∈ held
  pending : ∀ k ∈ filter.pending, k ∈ held ∧ k ∉ filter.deliveredDown
  rejected : ∀ k ∈ filter.bounceRejectedDown,
    k ∈ held ∧ k ∉ filter.deliveredDown ∧ k ∉ filter.pending
  ignored : ∀ k ∈ filter.ignoreModifierRelease,
    k ∈ held ∧ k ∉ filter.deliveredDown ∧ k ∉ filter.pending ∧ k ∉ filter.bounceRejectedDown

theorem downAfter_append (down : Finset ℕ) (evs more : List KeyTransition) :
    downAfter down (evs ++ more) = downAfter (downAfter down evs) more :=
  List.foldl_append

theorem mem_downAfter_released {keycodes : List ℕ} {k : ℕ} :
    k ∈ downAfter down (keycodes.map fun keycode => ⟨keycode, .released⟩) ↔
      k ∈ down ∧ k ∉ keycodes := by
  induction keycodes generalizing down with
  | nil => simp [downAfter]
  | cons keycode keycodes ih =>
    have hs : downAfter down ((keycode :: keycodes).map fun keycode => ⟨keycode, .released⟩) =
        downAfter (down.erase keycode) (keycodes.map fun keycode => ⟨keycode, .released⟩) := rfl
    rw [hs, ih, Finset.mem_erase, List.mem_cons]
    tauto

theorem mem_foldl_erase {ν : Type} {map : BTreeMap ℕ ν} {keys : List ℕ} {k : ℕ} :
    k ∈ keys.foldl (fun map key => map.erase key) map ↔ k ∈ map ∧ k ∉ keys := by
  induction keys generalizing map with
  | nil => simp
  | cons key keys ih =>
    simp only [List.foldl_cons, ih, mem_erase, List.mem_cons,
      Std.LawfulEqCmp.compare_eq_iff_eq, ne_eq]
    tauto

namespace Tracked

theorem new (config : KeyboardAccessibilitySettings) (held : Finset ℕ) :
    Tracked (.new config) held ∅ := by
  constructor <;> simp [KeyboardAccessibilityFilter.new]

/-- The shortcut does not touch the keys. -/
theorem track (h : Tracked filter held down) (st : KeyState) (role : KeyRole) (now : ℕ) :
    Tracked (filter.trackStickyShortcut st role now).1 held down := by
  unfold trackStickyShortcut
  split
  · exact h
  · split
    · exact ⟨h.down, h.delivered, h.pending, h.rejected, h.ignored⟩
    · dsimp only
      split <;> split <;> exact ⟨h.down, h.delivered, h.pending, h.rejected, h.ignored⟩

/-- A press is accepted of a held key that waits nowhere. -/
theorem applyPressed (h : Tracked filter held (downAfter down out.events)) (hh : keycode ∈ held)
    (hp : keycode ∉ filter.pending) (hre : keycode ∉ filter.bounceRejectedDown)
    (hig : keycode ∉ filter.ignoreModifierRelease) :
    Tracked (filter.applyPressed keycode role out).1 held
      (downAfter down (filter.applyPressed keycode role out).2.events) := by
  unfold KeyboardAccessibilityFilter.applyPressed
  split
  case isTrue hl =>
    constructor
    · intro k hk
      rw [downAfter_append] at hk
      obtain ⟨hne, hk⟩ := Finset.mem_erase.mp hk
      rcases h.down k hk with hk | hk
      · refine .inl (mem_erase.mpr ⟨?_, hk⟩)
        intro heq
        exact hne (Std.LawfulEqCmp.eq_of_compare heq).symm
      · exact .inr (Finset.mem_erase.mpr ⟨hne, hk⟩)
    · intro k hk
      exact h.delivered k (mem_of_mem_erase hk)
    · intro k hk
      obtain ⟨hh, hk⟩ := h.pending k hk
      exact ⟨hh, fun hm => hk (mem_of_mem_erase hm)⟩
    · intro k hk
      obtain ⟨hh, hk, hn⟩ := h.rejected k hk
      exact ⟨hh, fun hm => hk (mem_of_mem_erase hm), hn⟩
    · intro k hk
      rcases Finset.mem_insert.mp hk with rfl | hk
      · exact ⟨hh, by simp, hp, hre⟩
      · obtain ⟨hh, hk, hn⟩ := h.ignored k hk
        exact ⟨hh, fun hm => hk (mem_of_mem_erase hm), hn⟩
  case isFalse =>
    have hi (k : ℕ) (hne : k ≠ keycode) (hk : k ∉ filter.deliveredDown) :
        k ∉ filter.deliveredDown.insert keycode role := by
      rw [mem_insert, Std.LawfulEqCmp.compare_eq_iff_eq]
      rintro (heq | hm)
      · exact hne heq.symm
      · exact hk hm
    constructor
    · intro k hk
      rw [downAfter_append] at hk
      rcases Finset.mem_insert.mp hk with rfl | hk
      · exact .inl mem_insert_self
      · exact (h.down k hk).imp_left fun hm => mem_insert.mpr (.inr hm)
    · intro k hk
      rcases mem_insert.mp hk with heq | hk
      · exact Std.LawfulEqCmp.eq_of_compare heq ▸ hh
      · exact h.delivered k hk
    · intro k hk
      obtain ⟨hh, hn⟩ := h.pending k hk
      exact ⟨hh, hi k (ne_of_mem_of_not_mem hk hp) hn⟩
    · intro k hk
      obtain ⟨hh, hn, hr⟩ := h.rejected k hk
      exact ⟨hh, hi k (ne_of_mem_of_not_mem hk hre) hn, hr⟩
    · intro k hk
      obtain ⟨hh, hn, hr⟩ := h.ignored k hk
      exact ⟨hh, hi k (ne_of_mem_of_not_mem hk hig) hn, hr⟩

/-- A key that waits nowhere is not held any more after its release. -/
theorem applyReleased (h : Tracked filter held (downAfter down out.events))
    (hp : keycode ∉ filter.pending) (hre : keycode ∉ filter.bounceRejectedDown) :
    Tracked (filter.applyReleased keycode role now out).1 (held.erase keycode)
      (downAfter down (filter.applyReleased keycode role now out).2.events) := by
  have ho {k : ℕ} (hne : k ≠ keycode) (hk : k ∈ held) : k ∈ held.erase keycode :=
    Finset.mem_erase.mpr ⟨hne, hk⟩
  have hke {k : ℕ} (hk : k ∈ filter.deliveredDown.erase keycode) :
      k ≠ keycode ∧ k ∈ filter.deliveredDown := by
    obtain ⟨hne, hk⟩ := mem_erase.mp hk
    exact ⟨fun heq => hne (Std.LawfulEqCmp.compare_eq_iff_eq.mpr heq.symm), hk⟩
  have hp' : ∀ k ∈ filter.pending,
      k ∈ held.erase keycode ∧ k ∉ filter.deliveredDown := by
    intro k hk
    obtain ⟨hh, hn⟩ := h.pending k hk
    exact ⟨ho (ne_of_mem_of_not_mem hk hp) hh, hn⟩
  have hr' : ∀ k ∈ filter.bounceRejectedDown,
      k ∈ held.erase keycode ∧ k ∉ filter.deliveredDown ∧ k ∉ filter.pending := by
    intro k hk
    obtain ⟨hh, hn⟩ := h.rejected k hk
    exact ⟨ho (ne_of_mem_of_not_mem hk hre) hh, hn⟩
  unfold KeyboardAccessibilityFilter.applyReleased
  split
  case isTrue hi =>
    refine ⟨h.down, ?_, hp', hr', ?_⟩
    · intro k hk
      refine ho ?_ (h.delivered k hk)
      rintro rfl
      exact (h.ignored k hi).2.1 hk
    · intro k hk
      obtain ⟨hne, hk⟩ := Finset.mem_erase.mp hk
      obtain ⟨hh, hn⟩ := h.ignored k hk
      exact ⟨ho hne hh, hn⟩
  case isFalse hi =>
    have hi' : ∀ k ∈ filter.ignoreModifierRelease, k ∈ held.erase keycode ∧
        k ∉ filter.deliveredDown ∧ k ∉ filter.pending ∧ k ∉ filter.bounceRejectedDown := by
      intro k hk
      obtain ⟨hh, hn⟩ := h.ignored k hk
      exact ⟨ho (ne_of_mem_of_not_mem hk hi) hh, hn⟩
    -- Whatever is still delivered was so before and is another key.
    have hr (dlv : BTreeMap ℕ KeyRole)
        (hs : ∀ k ∈ dlv, k ∈ filter.deliveredDown.erase keycode) :
        (∀ k ∈ dlv, k ∈ held.erase keycode) ∧
        (∀ k, k ∉ filter.deliveredDown → k ∉ dlv) := by
      constructor
      · intro k hk
        obtain ⟨hne, hk⟩ := hke (hs k hk)
        exact ho hne (h.delivered k hk)
      · intro k hk hm
        exact hk (hke (hs k hm)).2
    have hdo {k : ℕ} (hne : k ≠ keycode) (hk : k ∈ filter.deliveredDown) :
        k ∈ filter.deliveredDown.erase keycode :=
      mem_erase.mpr ⟨fun heq => hne (Std.LawfulEqCmp.eq_of_compare heq).symm, hk⟩
    dsimp only
    split
    · -- The key is latched: it stays down.
      obtain ⟨hd, hn⟩ := hr _ fun k hk => hk
      refine ⟨?_, hd, fun k hk => (hp' k hk).imp_right (hn k),
        fun k hk => (hr' k hk).imp_right (And.imp_left (hn k)),
        fun k hk => (hi' k hk).imp_right (And.imp_left (hn k))⟩
      intro k hk
      by_cases hne : k = keycode
      · exact .inr (Finset.mem_insert.mpr (.inl hne))
      · exact (h.down k hk).imp (hdo hne) fun hm => Finset.mem_insert.mpr (.inr hm)
    · split
      · -- The latches end with the key.
        obtain ⟨hd, hn⟩ := hr
          ((filter.latchedModifiers.sort (· ≤ ·)).foldl (fun down keycode => down.erase keycode)
            (filter.deliveredDown.erase keycode)) fun k hk => ((mem_foldl_erase).mp hk).1
        refine ⟨?_, hd, fun k hk => (hp' k hk).imp_right (hn k),
          fun k hk => (hr' k hk).imp_right (And.imp_left (hn k)),
          fun k hk => (hi' k hk).imp_right (And.imp_left (hn k))⟩
        intro k hk
        simp only [consumeLatches, downAfter_append, mem_downAfter_released,
          Finset.mem_sort] at hk ⊢
        obtain ⟨hk, hl⟩ := hk
        obtain ⟨hne, hk⟩ := Finset.mem_erase.mp hk
        refine .inl ((mem_foldl_erase).mpr ⟨?_, ?_⟩)
        · exact hdo hne ((h.down k hk).resolve_right hl)
        · rwa [Finset.mem_sort]
      · obtain ⟨hd, hn⟩ := hr _ fun k hk => hk
        refine ⟨?_, hd, fun k hk => (hp' k hk).imp_right (hn k),
          fun k hk => (hr' k hk).imp_right (And.imp_left (hn k)),
          fun k hk => (hi' k hk).imp_right (And.imp_left (hn k))⟩
        intro k hk
        rw [downAfter_append] at hk
        obtain ⟨hne, hk⟩ := Finset.mem_erase.mp hk
        exact (h.down k hk).imp_left (hdo hne)

/-- A key that is pressed was in no place before. -/
theorem fresh (h : Tracked filter held down) (hke : keycode ∉ held) :
    keycode ∉ filter.pending ∧ keycode ∉ filter.bounceRejectedDown ∧
      keycode ∉ filter.ignoreModifierRelease ∧ keycode ∉ filter.deliveredDown :=
  ⟨fun hk => hke (h.pending _ hk).1, fun hk => hke (h.rejected _ hk).1,
    fun hk => hke (h.ignored _ hk).1, fun hk => hke (h.delivered _ hk)⟩

theorem hold (h : Tracked filter held down) (keycode : ℕ) :
    Tracked filter (insert keycode held) down := by
  refine ⟨h.down, ?_, ?_, ?_, ?_⟩
  · intro k hk
    exact Finset.mem_insert_of_mem (h.delivered k hk)
  · intro k hk
    exact (h.pending k hk).imp_left Finset.mem_insert_of_mem
  · intro k hk
    exact (h.rejected k hk).imp_left Finset.mem_insert_of_mem
  · intro k hk
    exact (h.ignored k hk).imp_left Finset.mem_insert_of_mem

theorem pressed (h : Tracked filter held down) (hke : keycode ∉ held) :
    Tracked (filter.process keycode .pressed role now).1 (insert keycode held)
      (downAfter down (filter.process keycode .pressed role now).2.events) := by
  have ht := (h.track .pressed role now).hold keycode
  obtain ⟨hp, hre, hi, hd⟩ := (h.track .pressed role now).fresh hke
  have hh : keycode ∈ insert keycode held := Finset.mem_insert_self ..
  unfold process
  dsimp only
  generalize (filter.trackStickyShortcut .pressed role now).1 = tracked at *
  split
  · refine ⟨ht.down, ht.delivered, ht.pending, ?_, ?_⟩
    · intro k hk
      rcases Finset.mem_insert.mp hk with rfl | hk
      · exact ⟨hh, hd, hp⟩
      · exact ht.rejected k hk
    · intro k hk
      obtain ⟨hm, hno, hn, hr⟩ := ht.ignored k hk
      refine ⟨hm, hno, hn, ?_⟩
      rw [Finset.mem_insert, not_or]
      exact ⟨ne_of_mem_of_not_mem hk hi, hr⟩
  · split
    · have hin {k : ℕ} (hne : k ≠ keycode) (hk : k ∉ tracked.pending) :
          k ∉ tracked.pending.insertIfNew keycode
            { acceptedAt := now + milliseconds tracked.config.slowKeysDelayMs, role } := by
        rw [mem_insertIfNew, Std.LawfulEqCmp.compare_eq_iff_eq]
        rintro (heq | hm)
        · exact hne heq.symm
        · exact hk hm
      refine ⟨ht.down, ht.delivered, ?_, ?_, ?_⟩
      · intro k hk
        rcases mem_insertIfNew.mp hk with heq | hk
        · obtain rfl := Std.LawfulEqCmp.eq_of_compare heq
          exact ⟨hh, hd⟩
        · exact ht.pending k hk
      · intro k hk
        obtain ⟨hm, hno, hn⟩ := ht.rejected k hk
        exact ⟨hm, hno, hin (ne_of_mem_of_not_mem hk hre) hn⟩
      · intro k hk
        obtain ⟨hm, hno, hn, hr⟩ := ht.ignored k hk
        exact ⟨hm, hno, hin (ne_of_mem_of_not_mem hk hi) hn, hr⟩
    · exact ht.applyPressed hh hp hre hi

theorem released (h : Tracked filter held down) :
    Tracked (filter.process keycode .released role now).1 (held.erase keycode)
      (downAfter down (filter.process keycode .released role now).2.events) := by
  have ht := h.track .released role now
  have ho {k : ℕ} (hne : k ≠ keycode) (hk : k ∈ held) : k ∈ held.erase keycode :=
    Finset.mem_erase.mpr ⟨hne, hk⟩
  unfold process
  dsimp only
  generalize (filter.trackStickyShortcut .released role now).1 = tracked at *
  split
  case isTrue hre =>
    obtain ⟨-, hd, hp⟩ := ht.rejected keycode hre
    refine ⟨ht.down, ?_, ?_, ?_, ?_⟩
    · intro k hk
      exact ho (ne_of_mem_of_not_mem hk hd) (ht.delivered k hk)
    · intro k hk
      exact (ht.pending k hk).imp_left (ho (ne_of_mem_of_not_mem hk hp))
    · intro k hk
      obtain ⟨hne, hk⟩ := Finset.mem_erase.mp hk
      exact (ht.rejected k hk).imp_left (ho hne)
    · intro k hk
      obtain ⟨hm, hno, hn, hr⟩ := ht.ignored k hk
      have hne : k ≠ keycode := fun heq => hr (heq ▸ hre)
      exact ⟨ho hne hm, hno, hn, fun hin => hr (Finset.mem_of_mem_erase hin)⟩
  case isFalse hre =>
    split
    case isTrue hp =>
      obtain ⟨-, hd⟩ := ht.pending keycode hp
      have he {k : ℕ} (hk : k ∈ tracked.pending.erase keycode) :
          k ≠ keycode ∧ k ∈ tracked.pending := by
        obtain ⟨hne, hk⟩ := mem_erase.mp hk
        exact ⟨fun heq => hne (Std.LawfulEqCmp.compare_eq_iff_eq.mpr heq.symm), hk⟩
      refine ⟨ht.down, ?_, ?_, ?_, ?_⟩
      · intro k hk
        exact ho (ne_of_mem_of_not_mem hk hd) (ht.delivered k hk)
      · intro k hk
        obtain ⟨hne, hk⟩ := he hk
        exact (ht.pending k hk).imp_left (ho hne)
      · intro k hk
        obtain ⟨hm, hno, hn⟩ := ht.rejected k hk
        exact ⟨ho (ne_of_mem_of_not_mem hk hre) hm, hno, fun hin => hn (he hin).2⟩
      · intro k hk
        obtain ⟨hm, hno, hn, hr⟩ := ht.ignored k hk
        have hne : k ≠ keycode := fun heq => hn (heq ▸ hp)
        exact ⟨ho hne hm, hno, fun hin => hn (he hin).2, hr⟩
    case isFalse hp => exact ht.applyReleased hp hre

theorem accept (h : Tracked filter held (downAfter down out.events))
    (hn : (ready.map ReadyPress.keycode).Nodup)
    (hr : ∀ press ∈ ready, press.keycode ∈ filter.pending) :
    Tracked (KeyboardAccessibilityFilter.accept now ready filter out).1 held
      (downAfter down (KeyboardAccessibilityFilter.accept now ready filter out).2.events) := by
  induction ready generalizing filter out with
  | nil => exact h
  | cons press ready ih =>
    obtain ⟨hnw, hn⟩ := List.nodup_cons.mp hn
    have hm := hr press (by simp)
    obtain ⟨hh, hd⟩ := h.pending _ hm
    have he : Tracked { filter with pending := filter.pending.erase press.keycode } held
        (downAfter down out.events) := by
      refine ⟨h.down, h.delivered, ?_, ?_, ?_⟩
      · intro k hk
        exact h.pending k (mem_of_mem_erase hk)
      · intro k hk
        obtain ⟨hm, hnt, hno⟩ := h.rejected k hk
        exact ⟨hm, hnt, fun hin => hno (mem_of_mem_erase hin)⟩
      · intro k hk
        obtain ⟨hm, hnt, hno, hre⟩ := h.ignored k hk
        exact ⟨hm, hnt, fun hin => hno (mem_of_mem_erase hin), hre⟩
    refine ih (he.applyPressed hh (by simp) ?_ ?_) hn ?_
    · intro hrj
      exact (h.rejected _ hrj).2.2 hm
    · intro hi
      exact (h.ignored _ hi).2.2.1 hm
    · intro other ho
      have hne : press.keycode ≠ other.keycode := by
        intro heq
        exact hnw (heq ▸ List.mem_map_of_mem ho)
      have hp : other.keycode ∈ filter.pending.erase press.keycode :=
        mem_erase.mpr ⟨fun heq => hne (Std.LawfulEqCmp.eq_of_compare heq),
          hr other (List.mem_cons_of_mem _ ho)⟩
      simp only [applyAccepted, KeyboardAccessibilityFilter.applyPressed]
      split <;> exact hp

theorem tick (h : Tracked filter held down) :
    Tracked (filter.tick now).1 held (downAfter down (filter.tick now).2.events) := by
  have hp : (filter.ready now).Perm ((filter.pending.toList.filter fun e =>
      e.2.acceptedAt ≤ now).map fun e =>
        { acceptedAt := e.2.acceptedAt, keycode := e.1, role := e.2.role }) :=
    List.perm_insertionSort _ _
  apply accept h
  · refine (hp.map _).nodup_iff.mpr ?_
    rw [List.map_map]
    have hk : (filter.pending.toList.map Prod.fst).Nodup := by
      rw [map_fst_toList_eq_keys]
      exact nodup_keys
    exact hk.sublist (List.filter_sublist.map _)
  · intro press hpr
    obtain ⟨e, he, rfl⟩ := List.mem_map.mp (hp.mem_iff.mp hpr)
    have hg := mem_toList_iff_getElem?_eq_some.mp (List.mem_of_mem_filter he)
    exact mem_of_getElem? hg

/-- A change of the configuration releases what is delivered. -/
theorem reconfigure_down (config : KeyboardAccessibilitySettings)
    (hc : filter.config ≠ config.sanitized) {k : ℕ} :
    k ∈ downAfter down (filter.reconfigure config).2 ↔ k ∈ down ∧ k ∉ filter.deliveredDown := by
  rw [reconfigure, if_neg hc]
  simp only [releaseAll, mem_downAfter_released, mem_keys]

end Tracked

namespace KeyboardRun

theorem downstream_reconfigure (run : KeyboardRun) (config : KeyboardAccessibilitySettings) :
    (run.reconfigure config).downstream =
      downAfter run.downstream (run.filter.reconfigure config).2 :=
  downAfter_append ..

/-- All keys are up after a change exactly when no latched modifier is in its way. -/
theorem downstream_reconfigure_eq_empty (h : Tracked kb.filter kb.held kb.downstream)
    (hc : kb.filter.config ≠ config.sanitized) :
    (kb.reconfigure config).downstream = ∅ ↔ kb.NoneLatched (.reconfigure config) := by
  rw [downstream_reconfigure, Finset.eq_empty_iff_forall_notMem]
  simp only [Tracked.reconfigure_down config hc, not_and, not_not]
  constructor
  · intro hup _ k _ hd
    exact hup k hd
  · intro hn k hd
    rcases h.down k hd with hde | hl
    · exact hde
    · exact hn hc k hl hd

def Sound (run : KeyboardRun) : Prop := Tracked run.filter run.held run.downstream

theorem step_sound (hs : kb.step event = some keyboard') (hn : kb.NoneLatched event) (h : kb.Sound)
    : keyboard'.Sound := by
  have he (held : Finset ℕ) (after : KeyboardAccessibilityFilter × FilterOutput)
      (ha : Tracked after.1 held (downAfter kb.downstream after.2.events)) :
      (kb.emit held after).Sound := by
    rwa [Sound, downstream, emit, downAfter_append]
  cases event with
  | process keycode st role now =>
    cases st with
    | pressed =>
      simp only [step, Option.ite_none_left_eq_some] at hs
      obtain ⟨hk, hs⟩ := hs
      cases hs
      exact he _ _ (Tracked.pressed h hk)
    | released =>
      simp only [step, Option.ite_none_right_eq_some] at hs
      obtain ⟨hk, hs⟩ := hs
      cases hs
      exact he _ _ (Tracked.released h)
  | tick now =>
    cases hs
    exact he _ _ (Tracked.tick h)
  | reconfigure config =>
    cases hs
    by_cases hc : kb.filter.config = config.sanitized
    · simpa [Sound, KeyboardRun.reconfigure, KeyboardAccessibilityFilter.reconfigure, hc,
        downstream] using h
    · have hup := (downstream_reconfigure_eq_empty h hc).mpr hn
      rw [Sound, hup]
      simp only [KeyboardRun.reconfigure, KeyboardAccessibilityFilter.reconfigure, if_neg hc,
        releaseAll]
      constructor <;> simp

end KeyboardRun

open KeyboardRun

/-- In every run whose changes of the configuration meet no latched modifier that is down, each key
that is down downstream is held or latched; and a change of the configuration leaves all keys up
exactly when it meets none. -/
theorem no_key_stuck (config : KeyboardAccessibilitySettings) (held : Finset ℕ)
    (events : List KeyboardEvent) (final : KeyboardRun)
    (hnone : Meets step NoneLatched (.start config held) events)
    (hrun : run step (.start config held) events = some final) :
    (∀ keycode ∈ final.downstream,
      keycode ∈ final.held ∨ keycode ∈ final.filter.latchedModifiers) ∧
      ∀ config : KeyboardAccessibilitySettings, final.filter.config ≠ config.sanitized →
        ((final.reconfigure config).downstream = ∅ ↔ final.NoneLatched (.reconfigure config)) := by
  have h : final.Sound := run_invariant_of_meets step_sound hnone hrun (Tracked.new config held)
  constructor
  · intro keycode hd
    exact (Tracked.down h keycode hd).imp_left (Tracked.delivered h keycode)
  · intro config hc
    exact downstream_reconfigure_eq_empty h hc

/-- Sticky keys, the rest as it is by default. -/
def stickyConfig : KeyboardAccessibilitySettings :=
  { KeyboardAccessibilitySettings.default with stickyKeys := true }

/-- Shift is pressed and released, and then a letter. -/
def stickyEvents : List KeyboardEvent :=
  [.process 42 .pressed .shift 0, .process 42 .released .shift 1, .process 30 .pressed .other 2,
    .process 30 .released .other 3, .reconfigure .default]

theorem no_key_stuck_sample :
    Meets step NoneLatched (.start stickyConfig ∅) stickyEvents ∧
      ∃ final, run step (.start stickyConfig ∅) stickyEvents = some final ∧
        final.emitted.length = 4 ∧ ∀ keycode ∈ final.downstream,
          keycode ∈ final.held ∨ keycode ∈ final.filter.latchedModifiers := by
  obtain ⟨hn, final, hr, he⟩ : Meets step NoneLatched (.start stickyConfig ∅)
      stickyEvents ∧ ∃ final, run step (.start stickyConfig ∅) stickyEvents = some final ∧
        decide (final.emitted.length = 4) = true := exists_run_of_checked (by decide +kernel)
  exact ⟨hn, final, hr, of_decide_eq_true he,
    (no_key_stuck stickyConfig ∅ stickyEvents final hn hr).1⟩

/-- A latched modifier stays down when the configuration changes. -/
theorem latched_modifier_stuck :
    ¬ ∀ (config : KeyboardAccessibilitySettings) (held : Finset ℕ) (events : List KeyboardEvent)
      (final : KeyboardRun), run step (.start config held) events = some final →
        ∀ config : KeyboardAccessibilitySettings, final.filter.config ≠ config.sanitized →
          (final.reconfigure config).downstream = ∅ := by
  intro h
  obtain ⟨final, hr, hs⟩ : ∃ final, run step (.start stickyConfig ∅)
      (stickyEvents.take 2) = some final ∧
        decide (final.filter.config ≠ KeyboardAccessibilitySettings.default.sanitized ∧
          42 ∈ (final.reconfigure .default).downstream) = true :=
    exists_run_of_any (by decide +kernel)
  obtain ⟨hc, hd⟩ := of_decide_eq_true hs
  rw [h stickyConfig ∅ _ final hr .default hc] at hd
  exact Finset.notMem_empty _ hd

end FocalDesk
