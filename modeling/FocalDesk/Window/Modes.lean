import FocalDesk.Window.Desk

/-! What each change of a window's mode keeps of the rule that its modes exclude each other. -/
namespace FocalDesk.Window
open Library Bool

namespace ManagedWindow

/-- How many of its three modes a window is in. -/
def modeCount (managed : ManagedWindow) : ℕ :=
  managed.tileRect.isSome.toNat + managed.maximized.toNat + managed.fullscreen.toNat

/-- A window is in one mode at most, and keeps a suspended pane only while it is maximized. -/
structure Exclusive (managed : ManagedWindow) : Prop where
  one : managed.modeCount ≤ 1
  suspended : managed.suspendedTileRect.isSome = true → managed.maximized = true

instance (managed : ManagedWindow) : Decidable managed.Exclusive :=
  decidable_of_iff (managed.modeCount ≤ 1 ∧
    (managed.suspendedTileRect.isSome = true → managed.maximized = true))
    ⟨fun h => ⟨h.1, h.2⟩, fun h => ⟨h.one, h.suspended⟩⟩

/-- A window that covers no work area: neither maximized nor fullscreen. -/
def Uncovered (managed : ManagedWindow) : Prop :=
  managed.maximized = false ∧ managed.fullscreen = false

instance (managed : ManagedWindow) : Decidable managed.Uncovered :=
  inferInstanceAs (Decidable (_ ∧ _))

variable {managed : ManagedWindow} {work ownWork : Option Rect} {default tgt : Rect}
  {output : OutputId}

theorem exclusive_iff : managed.Exclusive ↔
    (managed.tileRect.isSome → managed.Uncovered) ∧
      (managed.maximized → managed.fullscreen = false) ∧
      (managed.suspendedTileRect.isSome → managed.maximized) := by
  constructor
  · rintro ⟨ho, hs⟩
    unfold modeCount at ho
    refine ⟨fun ht => ?_, fun hm => ?_, hs⟩
    · rw [ht] at ho
      constructor
      · cases hm : managed.maximized with
        | false => rfl
        | true =>
          rw [hm] at ho
          exact absurd ho (by simp only [toNat_true]; omega)
      · cases hf : managed.fullscreen with
        | false => rfl
        | true =>
          rw [hf] at ho
          exact absurd ho (by simp only [toNat_true]; omega)
    · cases hf : managed.fullscreen with
      | false => rfl
      | true => simp [hm, hf] at ho
  · rintro ⟨ht, hm, hs⟩
    refine ⟨?_, hs⟩
    unfold modeCount
    cases hso : managed.tileRect.isSome with
    | true =>
      obtain ⟨hm, hf⟩ := ht hso
      simp [hm, hf]
    | false =>
      cases hma : managed.maximized with
      | true => simp [hm hma]
      | false =>
        have hle := toNat_le managed.fullscreen
        simpa using hle

theorem Exclusive.uncovered (h : managed.Exclusive) (ht : managed.tileRect.isSome) :
    managed.Uncovered := ((exclusive_iff).mp h).1 ht

theorem Exclusive.fullscreen (h : managed.Exclusive) (hm : managed.maximized) :
    managed.fullscreen = false := ((exclusive_iff).mp h).2.1 hm

theorem Exclusive.of_uncovered (h : managed.Uncovered) (hs : managed.suspendedTileRect = none)
    : managed.Exclusive := by
  refine (exclusive_iff).mpr ⟨fun _ => h, fun _ => h.2, fun hso => ?_⟩
  simp [hs] at hso

theorem Exclusive.suspended_eq_none (h : managed.Exclusive) (hm : managed.maximized = false) :
    managed.suspendedTileRect = none := by
  cases hs : managed.suspendedTileRect with
  | none => rfl
  | some tile =>
    have := h.suspended (by simp [hs])
    simp [hm] at this

@[simp] theorem configure_exclusive (rect : Rect) :
    (managed.configure rect).Exclusive ↔ managed.Exclusive := by
  simp only [exclusive_iff, Uncovered, configure]

/-- Maximizing is safe unless the window is fullscreen. -/
theorem Exclusive.maximize (hf : managed.fullscreen = false) :
    (managed.maximize work).Exclusive := by
  unfold ManagedWindow.maximize
  cases ht : managed.tileRect with
  | none => cases work <;> simp [exclusive_iff, configure, Uncovered, ht, hf]
  | some tile => cases work <;> simp [exclusive_iff, configure, Uncovered, hf]

theorem Exclusive.unmaximize (hf : managed.fullscreen = false) (ht : managed.tileRect = none)
    : (managed.unmaximize work).Exclusive := by
  unfold ManagedWindow.unmaximize
  cases managed.suspendedPane work with
  | none => simp [exclusive_iff, configure, Uncovered, hf, ht]
  | some tile => simp [exclusive_iff, configure, Uncovered, hf]

theorem Exclusive.tileRect_eq_none (h : managed.Exclusive) (hm : managed.maximized) :
    managed.tileRect = none := by
  cases ht : managed.tileRect with
  | none => rfl
  | some tile =>
    have := (h.uncovered (by simp [ht])).1
    simp [hm] at this

theorem Exclusive.setMaximized {maximized : Bool} (h : managed.Exclusive)
    (hf : maximized → managed.fullscreen = false) :
    (managed.setMaximized work ownWork maximized).Exclusive := by
  unfold ManagedWindow.setMaximized
  by_cases hs : managed.maximized = maximized
  · rwa [if_pos hs]
  · rw [if_neg hs]
    cases maximized with
    | true =>
      rw [if_pos rfl]
      exact .maximize (hf rfl)
    | false =>
      rw [if_neg (by decide)]
      have hm : managed.maximized := by simpa using hs
      exact .unmaximize (h.fullscreen hm) (h.tileRect_eq_none hm)

theorem Exclusive.restoreSplit (h : managed.Exclusive) :
    (managed.restoreSplit default).Exclusive := by
  unfold ManagedWindow.restoreSplit
  cases ht : managed.tileRect with
  | none => exact h
  | some tile =>
    have hl := h.uncovered (by simp [ht])
    exact (configure_exclusive _).mpr (.of_uncovered hl rfl)

@[simp] theorem restoreSplit_tileRect : (managed.restoreSplit default).tileRect = none := by
  unfold ManagedWindow.restoreSplit
  cases ht : managed.tileRect with
  | none => exact ht
  | some tile => rfl

@[simp] theorem restoreSplit_maximized :
    (managed.restoreSplit default).maximized = managed.maximized := by
  unfold ManagedWindow.restoreSplit
  cases managed.tileRect <;> rfl

@[simp] theorem restoreSplit_fullscreen :
    (managed.restoreSplit default).fullscreen = managed.fullscreen := by
  unfold ManagedWindow.restoreSplit
  cases managed.tileRect <;> rfl

@[simp] theorem restoreSplit_id : (managed.restoreSplit default).id = managed.id := by
  unfold ManagedWindow.restoreSplit
  cases managed.tileRect <;> rfl

theorem Exclusive.leaveSplit (h : managed.Exclusive) : (managed.leaveSplit default).Exclusive := by
  unfold ManagedWindow.leaveSplit
  split_ifs with ht hsu
  · exact h.restoreSplit
  · refine (exclusive_iff).mpr ⟨fun hs => absurd hs ht, fun hm => h.fullscreen hm, ?_⟩
    rintro ⟨⟩
  · exact h

/-- Filling an output ends every other mode, unless there is none to fill: then only the flag is
set. -/
theorem Exclusive.enterFullscreen {rect : Option Rect} (h : managed.Exclusive)
    (hr : managed.maximized → rect.isSome) :
    (managed.enterFullscreen default rect output).Exclusive := by
  unfold ManagedWindow.enterFullscreen ManagedWindow.fillOutput
  dsimp only
  rw [restoreSplit_fullscreen]
  by_cases hf : managed.fullscreen
  · rw [if_pos hf]
    refine (exclusive_iff).mpr ⟨?_, fun hm => ?_, ?_⟩
    · simp
    · rw [restoreSplit_maximized] at hm
      simpa using h.fullscreen hm
    · simp
  · rw [if_neg hf]
    cases rect with
    | none =>
      have hm : managed.maximized = false := by
        cases hm : managed.maximized with
        | false => rfl
        | true => cases hr hm
      refine (exclusive_iff).mpr ⟨?_, ?_, ?_⟩ <;> simp [hm]
    | some rect =>
      refine (configure_exclusive _).mpr ((exclusive_iff).mpr ⟨?_, ?_, ?_⟩) <;> simp

theorem Exclusive.leaveFullscreen (h : managed.Exclusive) : managed.leaveFullscreen.Exclusive := by
  unfold ManagedWindow.leaveFullscreen
  by_cases hf : managed.fullscreen
  · rw [if_pos hf]
    refine (configure_exclusive _).mpr ((exclusive_iff).mpr ⟨fun ht => ?_, fun _ => rfl, ?_⟩)
    · exact ⟨(h.uncovered ht).1, rfl⟩
    · exact h.suspended
  · rwa [if_neg hf]

theorem Exclusive.enterPane (h : managed.Exclusive) (hl : managed.Uncovered) :
    (managed.enterPane default output tgt).1.Exclusive := by
  unfold ManagedWindow.enterPane
  by_cases hs : managed.tileRect = some tgt
  · rw [if_pos hs]
    exact h.restoreSplit
  · rw [if_neg hs]
    by_cases hm : managed.window.minSize.exceeds tgt.size
    · rw [if_pos hm]
      exact h
    · rw [if_neg hm]
      exact (configure_exclusive _).mpr (.of_uncovered hl rfl)

theorem unmaximize_uncovered (hf : managed.fullscreen = false) :
    (managed.unmaximize work).Uncovered := by
  unfold ManagedWindow.unmaximize
  cases managed.suspendedPane work <;> exact ⟨rfl, hf⟩

theorem fullscreen_of_splittable (h : managed.splittable) : managed.fullscreen = false := by
  simp only [splittable, and_eq_true, not_eq_true'] at h
  exact h.1.1.2

theorem Exclusive.placeInSplitRect (h : managed.Exclusive) :
    (managed.placeInSplitRect ownWork default output tgt).1.Exclusive := by
  unfold ManagedWindow.placeInSplitRect
  cases hs : managed.splittable with
  | false => exact h
  | true =>
    have hf := fullscreen_of_splittable hs
    cases hm : managed.maximized with
    | true =>
      exact (Exclusive.unmaximize hf (h.tileRect_eq_none hm)).enterPane (unmaximize_uncovered hf)
    | false => exact h.enterPane ⟨hm, hf⟩

/-- A pane is given safely to a window that covers no work area. -/
theorem Exclusive.configureSplitMember (h : managed.Exclusive) (hl : managed.Uncovered) :
    (managed.configureSplitMember tgt).Exclusive := by
  refine (configure_exclusive _).mpr (.of_uncovered hl ?_)
  exact h.suspended_eq_none hl.1

theorem Exclusive.clampFloatingToWork {work : Rect} (h : managed.Exclusive) :
    (managed.clampFloatingToWork default output work).Exclusive := by
  unfold ManagedWindow.clampFloatingToWork
  refine (configure_exclusive _).mpr ((exclusive_iff).mpr ⟨?_, ?_, ?_⟩)
  · simp
  · exact h.restoreSplit.fullscreen
  · exact h.restoreSplit.suspended

/-- What the undo may write back to a window: a pane when the window covers nothing, a suspended
pane when it is maximized. -/
def FitsUndo (saved : SplitUndoWindow) (managed : ManagedWindow) : Prop :=
  (saved.tileRect.isSome = true → managed.Uncovered) ∧
    (saved.suspendedTileRect.isSome = true → managed.maximized = true)

instance (saved : SplitUndoWindow) (managed : ManagedWindow) : Decidable (FitsUndo saved managed) :=
  inferInstanceAs (Decidable (_ ∧ _))

theorem Exclusive.undoWindow {saved : SplitUndoWindow} (h : managed.Exclusive)
    (hf : FitsUndo saved managed) : (Desk.undoWindow saved managed).Exclusive := by
  have hr : ManagedWindow.Exclusive
      { managed with
        output := saved.output
        workspace := saved.workspace
        tileRect := saved.tileRect
        floatRect := saved.floatRect
        splitRestoreRect := saved.splitRestoreRect
        suspendedTileRect := saved.suspendedTileRect } :=
    (exclusive_iff).mpr ⟨hf.1, h.fullscreen, hf.2⟩
  unfold Desk.undoWindow
  dsimp only
  split
  · exact hr
  · exact (configure_exclusive _).mpr hr

end ManagedWindow

end FocalDesk.Window
