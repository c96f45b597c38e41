import FocalDesk.Window.Operation

/-! When a window that leaves its modes is back at the rectangle it floated at. -/
namespace FocalDesk.Window
open Library Option

/-- The operations on the mode of one window, and the pointer that chooses the output it is
maximized on. -/
inductive ModeChange where
  | setWindowMaximized (maximized : Bool)
  | setWindowFullscreen (fullscreen : Bool) (requested : Option OutputId)
  | placeWindowInSplitRect (output : OutputId) (target : Rect)
  | restoreSplitWindow
  | restoreAllSplitWindows
  | pointer (output : Option OutputId)
deriving DecidableEq, Repr

namespace ManagedWindow

variable (managed : ManagedWindow)

/-- The client takes the size it was asked for; what its surface has besides its window geometry
stays. -/
def adopt : ManagedWindow :=
  match managed.window.configured with
  | none => managed
  | some size =>
    { managed with
      window := { managed.window with
        geometry := size
        surface := {
          w := size.w + (managed.window.surface.w - managed.window.geometry.w)
          h := size.h + (managed.window.surface.h - managed.window.geometry.h) } } }

/-- The client has the size it was asked for last. -/
def Adopted : Prop := ∀ size ∈ managed.window.configured, managed.window.geometry = size

/-- In no mode at all. -/
def Free : Prop :=
  managed.tileRect = none ∧ managed.maximized = false ∧ managed.fullscreen = false

instance : Decidable managed.Free := inferInstanceAs (Decidable (_ ∧ _ ∧ _))

/-- Floating at a rectangle, with nothing asked of the client. -/
structure FloatsAt (rect : Rect) : Prop where
  free : managed.Free
  suspended : managed.suspendedTileRect = none
  adopted : managed.Adopted
  bbox : managed.elementBbox = some rect

/-- Where the rectangle is kept in each of the modes. -/
inductive Home (rect : Rect) : Prop
  | floating (h : managed.Free) (hsuspended : managed.suspendedTileRect = none)
      (hbbox : managed.elementBbox = some rect)
  | tiled (htile : managed.tileRect.isSome = true) (h : managed.Uncovered)
      (hsuspended : managed.suspendedTileRect = none)
      (hrestore : managed.splitRestoreRect = some rect)
  | maximized (htile : managed.tileRect = none) (hmax : managed.maximized = true)
      (hfull : managed.fullscreen = false) (hsuspended : managed.suspendedTileRect = none)
      (hrestore : managed.restoreRect = some rect)
  | maximizedPane (htile : managed.tileRect = none) (hmax : managed.maximized = true)
      (hfull : managed.fullscreen = false) (hsuspended : managed.suspendedTileRect.isSome = true)
      (hrestore : managed.splitRestoreRect = some rect)
  | fullscreen (htile : managed.tileRect = none) (hmax : managed.maximized = false)
      (hfull : managed.fullscreen = true) (hsuspended : managed.suspendedTileRect = none)
      (hrestore : managed.restoreRect = some rect)

end ManagedWindow

namespace Desk

def applyModeChange (desk : Desk) (id : WindowId) : ModeChange → Desk
  | .setWindowMaximized maximized => desk.setWindowMaximized id maximized
  | .setWindowFullscreen fullscreen requested => desk.setWindowFullscreen id fullscreen requested
  | .placeWindowInSplitRect output target => desk.placeWindowInSplitRect id output target
  | .restoreSplitWindow => desk.restoreSplitWindow id
  | .restoreAllSplitWindows => desk.restoreAllSplitWindows
  | .pointer output => { desk with around := { desk.around with outputUnderPointer := output } }

/-- A mode change of a window, and its client's answer to it. -/
def modeStep (id : WindowId) (desk : Desk) (change : ModeChange) : Option Desk :=
  some ((desk.applyModeChange id change).update id ManagedWindow.adopt)

end Desk

namespace ManagedWindow

variable {managed : ManagedWindow} {rect tgt default : Rect} {work ownWork : Option Rect}
  {out : OutputId}

/-- The client draws nothing outside its window geometry. -/
def Plain (managed : ManagedWindow) : Prop := managed.window.surface = managed.window.geometry

instance (managed : ManagedWindow) : Decidable managed.Plain :=
  inferInstanceAs (Decidable (_ = _))

theorem adopt_eq_of_adopted (h : managed.Adopted) : managed.adopt = managed := by
  obtain ⟨id, ⟨loc, shownOn, surf, geo, minSize, configured⟩⟩ := managed
  unfold adopt
  cases configured with
  | none => rfl
  | some size =>
    have hs : geo = size := h size rfl
    subst hs
    simp

theorem adopt_adopted (managed : ManagedWindow) : managed.adopt.Adopted := by
  unfold adopt
  split
  next hn =>
    intro size hs
    rw [hn] at hs
    cases hs
  next size hso =>
    intro asked ha
    exact some.inj (hso.symm.trans ha)

/-- A plain client that takes its size is shown at the rectangle it was asked to be at. -/
theorem elementBbox_configure_adopt (h : managed.Plain) :
    (managed.configure rect).adopt.elementBbox = some rect := by
  unfold Plain at h
  simp [configure, adopt, elementBbox, h]

section

@[simp] theorem adopt_id : managed.adopt.id = managed.id := by
  unfold adopt
  split <;> rfl

/-- Only the client's side changes when it adopts a size. -/
theorem adopt_eq (managed : ManagedWindow) :
    managed.adopt = { managed with window := managed.adopt.window } := by
  unfold adopt
  split <;> rfl

end

theorem Home.adopt_of_covered (h : managed.Home rect) (hc : ¬managed.Free) :
    managed.adopt.Home rect := by
  rw [adopt_eq]
  cases h with
  | floating h hs hb => exact absurd h hc
  | tiled ht h hs hr => exact .tiled ht h hs hr
  | maximized ht hm hf hs hr =>
    exact .maximized ht hm hf hs hr
  | maximizedPane ht hm hf hs hr =>
    exact .maximizedPane ht hm hf hs hr
  | fullscreen ht hm hf hs hr =>
    exact .fullscreen ht hm hf hs hr

theorem Home.adopt_of_adopted (h : managed.Home rect) (hadopted : managed.Adopted) :
    managed.adopt.Home rect := by
  rwa [adopt_eq_of_adopted hadopted]

/-- A free window that was asked to be at the rectangle is there. -/
theorem home_configure (hplain : managed.Plain) (hf : managed.Free)
    (hs : managed.suspendedTileRect = none) :
    (managed.configure rect).adopt.Home rect := by
  have hb : (managed.configure rect).adopt.elementBbox = some rect :=
    elementBbox_configure_adopt hplain
  generalize hw : (managed.configure rect).adopt.window = window at hb
  have ha := adopt_eq (managed.configure rect)
  rw [hw] at ha
  rw [ha] at hb ⊢
  exact .floating hf hs hb

theorem currentRect_of_bbox {loc : Point} (h : managed.elementBbox = some rect) :
    managed.currentRect loc = rect := by
  simp [currentRect, h]

theorem savedRect_of_restore (h : managed.restoreRect = some rect) : managed.savedRect = rect := by
  simp [savedRect, h]

theorem suspendedPane_of_none (h : managed.suspendedTileRect = none) :
    managed.suspendedPane work = none := by
  simp [suspendedPane, h]

section

variable (h : managed.Home rect) (hplain : managed.Plain) (hadopted : managed.Adopted)
include h hadopted

/-- Maximizing keeps the rectangle unless the window is fullscreen, or there is nothing to
maximize a floating window to. -/
theorem Home.maximize (hk : managed.maximized ∨ managed.fullscreen = false ∧
    (managed.tileRect.isSome ∨ work.isSome)) :
    (managed.setMaximized work ownWork true).adopt.Home rect := by
  unfold ManagedWindow.setMaximized
  by_cases hm : managed.maximized
  · rw [if_pos hm]
    exact h.adopt_of_adopted hadopted
  · rw [if_neg hm, if_pos rfl]
    obtain ⟨hf, ha⟩ := hk.resolve_left hm
    cases h with
    | floating hfr hs hb =>
      obtain ⟨ht, -, -⟩ := hfr
      rw [ht] at ha
      obtain ⟨work, rfl⟩ := isSome_iff_exists.mp (ha.resolve_left (by simp))
      have hr : ((managed.maximize (some work)).restoreRect) = some rect := by
        simp [ManagedWindow.maximize, ht, configure, currentRect_of_bbox hb]
      refine Home.adopt_of_covered (.maximized ?_ ?_ ?_ ?_ hr) ?_
      all_goals simp [ManagedWindow.maximize, ht, configure, hf, hs, Free]
    | tiled ht hl hs hr =>
      obtain ⟨tile, ht⟩ := isSome_iff_exists.mp ht
      cases work with
      | none =>
        refine Home.adopt_of_covered (.maximizedPane ?_ ?_ ?_ ?_ ?_) ?_
        all_goals simp [ManagedWindow.maximize, ht, hf, hr, Free]
      | some work =>
        refine Home.adopt_of_covered (.maximizedPane ?_ ?_ ?_ ?_ ?_) ?_
        all_goals simp [ManagedWindow.maximize, ht, configure, hf, hr, Free]
    | maximized ht hm' => exact absurd hm' hm
    | maximizedPane ht hm' => exact absurd hm' hm
    | fullscreen ht hm' hf' => simp [hf] at hf'

include hplain

theorem Home.unmaximize (hk : managed.maximized →
    managed.suspendedTileRect.isSome → (managed.suspendedPane ownWork).isSome) :
    (managed.setMaximized work ownWork false).adopt.Home rect := by
  unfold ManagedWindow.setMaximized
  by_cases hm : managed.maximized = false
  · rw [if_pos hm]
    exact h.adopt_of_adopted hadopted
  · rw [if_neg hm, if_neg (by decide)]
    have hm : managed.maximized := by simpa using hm
    cases h with
    | floating hfr => simp [hfr.2.1] at hm
    | tiled ht hl => simp [hl.1] at hm
    | maximized ht hm' hf hs hr =>
      unfold ManagedWindow.unmaximize
      dsimp only
      rw [suspendedPane_of_none hs, savedRect_of_restore hr]
      exact home_configure hplain ⟨ht, rfl, hf⟩ rfl
    | maximizedPane ht hm' hf hs hr =>
      obtain ⟨pane, hp⟩ := isSome_iff_exists.mp (hk hm hs)
      unfold ManagedWindow.unmaximize
      dsimp only
      rw [hp]
      refine Home.adopt_of_covered (.tiled rfl ⟨rfl, hf⟩ rfl hr) ?_
      simp [configure, Free]
    | fullscreen ht hm' => simp [hm'] at hm

theorem Home.leaveFullscreen : managed.leaveFullscreen.adopt.Home rect := by
  unfold ManagedWindow.leaveFullscreen
  by_cases hf : managed.fullscreen
  · rw [if_pos hf]
    cases h with
    | floating hfr => simp [hfr.2.2] at hf
    | tiled ht hl => simp [hl.2] at hf
    | maximized ht hm hf' => simp [hf'] at hf
    | maximizedPane ht hm hf' => simp [hf'] at hf
    | fullscreen ht hm hf' hs hr =>
      rw [savedRect_of_restore hr]
      exact home_configure hplain ⟨ht, hm, rfl⟩ hs
  · rw [if_neg hf]
    exact h.adopt_of_adopted hadopted

theorem Home.restoreSplit : (managed.restoreSplit default).adopt.Home rect := by
  unfold ManagedWindow.restoreSplit
  cases ht : managed.tileRect with
  | none => exact h.adopt_of_adopted hadopted
  | some tile =>
    cases h with
    | floating hf => simp [hf.1] at ht
    | tiled ht' hl hs hr =>
      rw [hr]
      exact home_configure hplain ⟨rfl, hl.1, hl.2⟩ rfl
    | maximized ht' => simp [ht'] at ht
    | maximizedPane ht' => simp [ht'] at ht
    | fullscreen ht' => simp [ht'] at ht

theorem Home.leaveSplit : (managed.leaveSplit default).adopt.Home rect := by
  unfold ManagedWindow.leaveSplit
  split_ifs with ht hs
  · exact h.restoreSplit hplain hadopted
  · cases h with
    | floating hfr hn => simp [hn] at hs
    | tiled ht' => exact absurd ht' ht
    | maximized ht' hm hf hn => simp [hn] at hs
    | maximizedPane ht' hm hf hso hr =>
      refine Home.adopt_of_covered (.maximized ht' hm hf rfl ?_) ?_
      · simp [hr]
      · simp [Free, hm]
    | fullscreen ht' hm hf hn => simp [hn] at hs
  · exact h.adopt_of_adopted hadopted

end

/-- Filling an output keeps the rectangle when it starts from the floating window. -/
theorem Home.enterFullscreen {area : Option Rect} (h : managed.Home rect) (hk :
    managed.fullscreen ∨ managed.maximized = false ∧ managed.tileRect = none ∧ area.isSome) :
    (managed.enterFullscreen default area out).adopt.Home rect := by
  have hs : managed.tileRect = none → managed.restoreSplit default = managed := by
    intro ht
    unfold ManagedWindow.restoreSplit
    rw [ht]
  unfold ManagedWindow.enterFullscreen ManagedWindow.fillOutput
  dsimp only
  by_cases hf : managed.fullscreen
  · rw [restoreSplit_fullscreen, if_pos hf]
    cases h with
    | floating hfr => simp [hfr.2.2] at hf
    | tiled ht hl => simp [hl.2] at hf
    | maximized ht hm hf' => simp [hf'] at hf
    | maximizedPane ht hm hf' => simp [hf'] at hf
    | fullscreen ht hm hf' hsu hr =>
      rw [hs ht]
      refine Home.adopt_of_covered (.fullscreen ht hm hf rfl hr) ?_
      simp [Free, hf]
  · rw [restoreSplit_fullscreen, if_neg hf]
    obtain ⟨hm, ht, ha⟩ := hk.resolve_left hf
    obtain ⟨area, rfl⟩ := isSome_iff_exists.mp ha
    rw [hs ht]
    cases h with
    | floating hfr hsu hb =>
      have hc : ({ managed with suspendedTileRect := none, splitRestoreRect := none } :
          ManagedWindow).currentRect area.loc = rect := currentRect_of_bbox hb
      dsimp only
      rw [hc]
      refine Home.adopt_of_covered (.fullscreen ht rfl rfl rfl rfl) ?_
      simp [Free, configure]
    | tiled ht' => simp [ht] at ht'
    | maximized ht' hm' => simp [hm] at hm'
    | maximizedPane ht' hm' => simp [hm] at hm'
    | fullscreen ht' hm' hf' => exact absurd hf' hf

/-- A pane for a tiled window. -/
theorem home_enterPane_of_tiled (hplain : managed.Plain) (ht : managed.tileRect.isSome)
    (hl : managed.Uncovered) (hsu : managed.suspendedTileRect = none)
    (hr : managed.splitRestoreRect = some rect) :
    (managed.enterPane default out tgt).1.adopt.Home rect := by
  obtain ⟨tile, ht⟩ := isSome_iff_exists.mp ht
  have hti : managed.Home rect := .tiled (by simp [ht]) hl hsu hr
  have hc : ¬managed.Free := by simp [Free, ht]
  unfold ManagedWindow.enterPane
  by_cases hs : managed.tileRect = some tgt
  · rw [if_pos hs]
    unfold ManagedWindow.restoreSplit
    rw [ht, hr]
    exact home_configure hplain ⟨rfl, hl.1, hl.2⟩ rfl
  · rw [if_neg hs]
    by_cases hm : managed.window.minSize.exceeds tgt.size
    · rw [if_pos hm]
      exact hti.adopt_of_covered hc
    · rw [if_neg hm]
      refine Home.adopt_of_covered (.tiled rfl hl rfl ?_) ?_
      · simp [configure, ht, hr]
      · simp [Free, configure]

/-- A pane for a free window that is still shown at the rectangle, or is too large for the pane. -/
theorem home_enterPane_of_free (hf : managed.Free) (ha : managed.adopt.Home rect)
    (hs : managed.window.minSize.exceeds tgt.size ∨ managed.elementBbox = some rect) :
    (managed.enterPane default out tgt).1.adopt.Home rect := by
  obtain ⟨ht, hl⟩ := hf
  unfold ManagedWindow.enterPane
  rw [if_neg (by simp [ht])]
  by_cases hm : managed.window.minSize.exceeds tgt.size
  · rw [if_pos hm]
    exact ha
  · rw [if_neg hm]
    have hb := hs.resolve_left hm
    refine Home.adopt_of_covered (.tiled rfl hl rfl ?_) ?_
    · simp [configure, ht, currentRect_of_bbox hb]
    · simp [Free, configure]

/-- Placing keeps the rectangle unless it takes a maximized window out of its mode on the way: then
the pane it had comes back first, or the window is too large for the pane. -/
theorem Home.placeInSplitRect (h : managed.Home rect) (hplain : managed.Plain)
    (hadopted : managed.Adopted)
    (hke : managed.splittable → managed.maximized →
      (managed.suspendedPane ownWork).isSome ∨
        managed.suspendedTileRect = none ∧ managed.window.minSize.exceeds tgt.size) :
    (managed.placeInSplitRect ownWork default out tgt).1.adopt.Home rect := by
  unfold ManagedWindow.placeInSplitRect
  cases hs : managed.splittable with
  | false => exact h.adopt_of_adopted hadopted
  | true =>
    have hf := fullscreen_of_splittable hs
    cases hm : managed.maximized with
    | false =>
      cases h with
      | floating hfr hsu hb =>
        exact home_enterPane_of_free hfr
          ((Home.floating hfr hsu hb).adopt_of_adopted hadopted) (.inr hb)
      | tiled ht hl hsu hr =>
        exact home_enterPane_of_tiled hplain ht hl hsu hr
      | maximized ht hm' => simp [hm] at hm'
      | maximizedPane ht hm' => simp [hm] at hm'
      | fullscreen ht hm' hf' => simp [hf] at hf'
    | true =>
      have hk := hke hs hm
      unfold ManagedWindow.unmaximize
      cases h with
      | floating hfr => simp [hfr.2.1] at hm
      | tiled ht hl => simp [hl.1] at hm
      | maximized ht _ _ hsu hr =>
        rw [suspendedPane_of_none hsu] at hk ⊢
        rw [savedRect_of_restore hr]
        obtain ⟨-, hmi⟩ := hk.resolve_left (by simp)
        exact home_enterPane_of_free ⟨ht, rfl, hf⟩
          (home_configure hplain ⟨ht, rfl, hf⟩ rfl) (.inl hmi)
      | maximizedPane ht _ _ hsu hr =>
        have hp := hk.resolve_right fun hn => by simp [hn.1] at hsu
        obtain ⟨pane, hp⟩ := isSome_iff_exists.mp hp
        rw [hp]
        exact home_enterPane_of_tiled hplain rfl ⟨rfl, hf⟩ rfl hr
      | fullscreen ht hm' => simp [hm'] at hm

end ManagedWindow

/-- Where the rectangle goes on being kept: the window is not maximized while it is fullscreen, nor
without an output to fill, and shows its suspended pane again when it stops being maximized; it
becomes fullscreen only from where it floats, and a pane's only from there or from another pane. -/
def KeepsRect (desk : Desk) (managed : ManagedWindow) : ModeChange → Prop
  | .setWindowMaximized true => managed.maximized = true ∨ managed.fullscreen = false ∧
      (managed.tileRect.isSome = true ∨
        (desk.around.workRecessForOutput (desk.around.maximizeOutput managed)).isSome = true)
  | .setWindowMaximized false => managed.maximized = true →
      managed.suspendedTileRect.isSome = true →
        (managed.suspendedPane (desk.around.ownWork managed)).isSome = true
  | .setWindowFullscreen true requested => managed.fullscreen = true ∨
      managed.maximized = false ∧ managed.tileRect = none ∧
        (desk.around.fullscreenRect (desk.around.fullscreenOutput managed requested)).isSome = true
  | .placeWindowInSplitRect output target =>
      desk.around.outputAcceptsWindows output = true → desk.around.splitScreenEnabled = true →
        managed.splittable = true → managed.maximized = true →
          (managed.suspendedPane (desk.around.ownWork managed)).isSome = true ∨
            managed.suspendedTileRect = none ∧ managed.window.minSize.exceeds target.size = true
  | _ => True

instance (desk : Desk) (managed : ManagedWindow) :
    (change : ModeChange) → Decidable (KeepsRect desk managed change)
  | .setWindowMaximized true => inferInstanceAs (Decidable (_ ∨ _))
  | .setWindowMaximized false => inferInstanceAs (Decidable (_ → _))
  | .setWindowFullscreen true _ => inferInstanceAs (Decidable (_ ∨ _))
  | .setWindowFullscreen false _ => isTrue trivial
  | .placeWindowInSplitRect _ _ => inferInstanceAs (Decidable (_ → _))
  | .restoreSplitWindow => isTrue trivial
  | .restoreAllSplitWindows => isTrue trivial
  | .pointer _ => isTrue trivial

/-- The client draws nothing outside its window geometry, and the rectangle is kept. -/
def KeepsHome (id : WindowId) (desk : Desk) (change : ModeChange) : Prop :=
  ∀ managed ∈ desk.window id, managed.Plain ∧ KeepsRect desk managed change

instance (id : WindowId) (desk : Desk) (change : ModeChange) :
    Decidable (KeepsHome id desk change) :=
  inferInstanceAs (Decidable (∀ managed ∈ desk.window id, _ ∧ _))

namespace Desk

variable {desk next : Desk} {id : WindowId} {rect : Rect} {managed : ManagedWindow}

theorem window_update {f : ManagedWindow → ManagedWindow}
    (hid : ∀ managed, (f managed).id = managed.id) (h : desk.window id = some managed) :
    (desk.update id f).window id = some (f managed) := by
  have hk : managed.id = id := (mem_of_window h).2
  unfold window update updateKey at *
  dsimp only
  rw [List.find?_map]
  have hs : ((fun managed : ManagedWindow => decide (managed.id = id)) ∘
      fun managed => if managed.id = id then f managed else managed) =
      fun managed : ManagedWindow => decide (managed.id = id) := by
    funext other
    by_cases ho : other.id = id
    · simp [ho, hid other]
    · simp [ho]
  rw [hs, h]
  simp [hk]

theorem window_map {f : ManagedWindow → ManagedWindow}
    (hid : ∀ managed, (f managed).id = managed.id) (hw : next.windows = desk.windows.map f)
    (h : desk.window id = some managed) :
    next.window id = some (f managed) := by
  unfold window at h ⊢
  rw [hw, List.find?_map]
  have hs : ((fun managed : ManagedWindow => decide (managed.id = id)) ∘ f) =
      fun managed : ManagedWindow => decide (managed.id = id) :=
    funext fun other => by simp [hid other]
  rw [hs, h]
  rfl

/-- The window is there, its rectangle is kept, and its client has the size asked for. -/
def AtHome (id : WindowId) (rect : Rect) (desk : Desk) : Prop :=
  ∃ managed, desk.window id = some managed ∧ managed.Home rect ∧ managed.Adopted

theorem atHome_of_window (hc : next.window id = some managed) (hh : managed.adopt.Home rect)
    : AtHome id rect (next.update id ManagedWindow.adopt) :=
  ⟨managed.adopt, window_update (fun _ => ManagedWindow.adopt_id) hc, hh, managed.adopt_adopted⟩

theorem AtHome.step {ch : ModeChange} (h : AtHome id rect desk)
    (hs : modeStep id desk ch = some next) (hke : KeepsHome id desk ch) :
    AtHome id rect next := by
  obtain ⟨managed, hw, hh, hadopted⟩ := h
  obtain ⟨hplain, hk⟩ := hke managed hw
  cases hs
  cases ch with
  | setWindowMaximized maximized =>
    refine atHome_of_window (window_update (fun _ => ManagedWindow.setMaximized_id) hw) ?_
    cases maximized with
    | true => exact hh.maximize hadopted hk
    | false => exact hh.unmaximize hplain hadopted hk
  | setWindowFullscreen fullscreen req =>
    refine atHome_of_window (window_update (fun managed => ?_) hw) ?_
    · split_ifs
      · exact ManagedWindow.enterFullscreen_id
      · exact ManagedWindow.leaveFullscreen_id
    · cases fullscreen with
      | true => exact hh.enterFullscreen hk
      | false => exact hh.leaveFullscreen hplain hadopted
  | placeWindowInSplitRect output target =>
    unfold applyModeChange placeWindowInSplitRect
    dsimp only
    by_cases hr : (!desk.around.outputAcceptsWindows output || !desk.around.splitScreenEnabled)
    · rw [if_pos hr]
      exact atHome_of_window hw (hh.adopt_of_adopted hadopted)
    · rw [if_neg hr]
      simp only [Bool.or_eq_true, Bool.not_eq_true', not_or, Bool.not_eq_false] at hr
      refine atHome_of_window (window_update (fun _ => ManagedWindow.placeInSplitRect_id) hw) ?_
      exact hh.placeInSplitRect hplain hadopted (hk hr.1 hr.2)
  | restoreSplitWindow =>
    exact atHome_of_window (window_update (fun _ => ManagedWindow.restoreSplit_id) hw)
      (hh.restoreSplit hplain hadopted)
  | restoreAllSplitWindows =>
    refine atHome_of_window (window_map (fun managed => ?_) rfl hw) (hh.leaveSplit hplain hadopted)
    exact ManagedWindow.id_eq_of_mode ManagedWindow.leaveSplit_mode
  | pointer output => exact atHome_of_window hw (hh.adopt_of_adopted hadopted)

/-- A window that floats at a rectangle is there again whenever a run of mode changes that keep it
leaves the window in no mode. -/
theorem floats_at_again {changes : List ModeChange} {after : ManagedWindow}
    (hwindow : desk.window id = some managed) (hfloats : managed.FloatsAt rect)
    (hkeeps : Meets (modeStep id) (KeepsHome id) desk changes)
    (hrun : run (modeStep id) desk changes = some next)
    (hafter : next.window id = some after) (hfree : after.Free) :
    after.elementBbox = some rect := by
  have hs : AtHome id rect desk :=
    ⟨managed, hwindow, .floating hfloats.free hfloats.suspended hfloats.bbox, hfloats.adopted⟩
  obtain ⟨last, hl, hh, -⟩ := run_invariant_of_meets
    (fun hst hok hi => AtHome.step hi hst hok) hkeeps hrun hs
  obtain rfl := some.inj (hl.symm.trans hafter)
  obtain ⟨hti, hma, hfu⟩ := hfree
  cases hh with
  | floating _ _ hb => exact hb
  | tiled ht => simp [hti] at ht
  | maximized _ hm => simp [hma] at hm
  | maximizedPane _ hm => simp [hma] at hm
  | fullscreen _ _ hf => simp [hfu] at hf

/-- A desktop with one window that floats. -/
def oneTerminal : Desk :=
  { start oneOutput with
    windows := [{ ManagedWindow.new 1 terminal false 1 with mapped := true, output := some 1 }] }

def terminalRect : Rect := ⟨⟨200, 100⟩, ⟨800, 600⟩⟩

/-- Maximized, tiled, maximized over the pane and back, floating again, fullscreen and back. -/
def throughModes : List ModeChange :=
  [.setWindowMaximized true, .setWindowMaximized false,
    .placeWindowInSplitRect 1 ⟨⟨0, 0⟩, ⟨960, 1080⟩⟩, .setWindowMaximized true,
    .setWindowMaximized false, .restoreSplitWindow, .setWindowFullscreen true none,
    .setWindowFullscreen false none]

theorem oneTerminal_floatsAt : ∃ managed, oneTerminal.window 1 = some managed ∧
    managed.FloatsAt terminalRect := by
  refine ⟨_, rfl, ⟨⟨rfl, rfl, rfl⟩, rfl, ?_, rfl⟩⟩
  rintro size ⟨⟩

theorem floats_at_again_example : ∃ next after,
    run (modeStep 1) oneTerminal throughModes = some next ∧ next.window 1 = some after ∧
      after.elementBbox = some terminalRect := by
  have h : (checkedRun (modeStep 1) (KeepsHome 1) oneTerminal throughModes).any (fun next =>
      (next.window 1).any fun managed => decide managed.Free) = true := by decide
  obtain ⟨hk, next, hr, hf⟩ := exists_run_of_checked h
  obtain ⟨after, ha, hf⟩ := any_eq_true _ _ |>.mp hf
  obtain ⟨managed, hw, hfl⟩ := oneTerminal_floatsAt
  exact ⟨next, after, hr, ha, floats_at_again hw hfl hk hr ha (of_decide_eq_true hf)⟩

/-- A window that goes from maximized to fullscreen comes back as large as it was maximized. -/
theorem fullscreen_over_maximized : ¬∀ (id : WindowId) (rect : Rect) (desk next : Desk)
    (managed after : ManagedWindow) (changes : List ModeChange), desk.window id = some managed →
      managed.FloatsAt rect → run (modeStep id) desk changes = some next →
        next.window id = some after → after.Free → after.elementBbox = some rect := by
  intro hal
  have h : (run (modeStep 1) oneTerminal [.setWindowMaximized true, .setWindowFullscreen true none,
      .setWindowFullscreen false none]).any (fun next => (next.window 1).any fun managed =>
        decide (managed.Free ∧ managed.elementBbox ≠ some terminalRect)) = true := by decide
  obtain ⟨next, hr, hl⟩ := exists_run_of_any h
  obtain ⟨after, ha, hl⟩ := any_eq_true _ _ |>.mp hl
  obtain ⟨hfr, hne⟩ := of_decide_eq_true hl
  obtain ⟨managed, hw, hf⟩ := oneTerminal_floatsAt
  exact hne (hal 1 terminalRect oneTerminal next managed after _ hw hf hr ha hfr)

end Desk

end FocalDesk.Window
