import FocalDesk.Window.Modes
import FocalDesk.Window.Reflow

/-! The windows of a desktop in one mode each: what the operations on splits and outputs keep. -/
namespace FocalDesk.Window
open Library List

/-- What neither a split operation nor a reflow changes of a window. -/
structure WindowMode where
  id : WindowId
  maximized : Bool
  fullscreen : Bool
  minSize : Size
deriving DecidableEq, Repr

namespace ManagedWindow

variable {managed : ManagedWindow} {default tgt : Rect} {out : OutputId}

def mode (managed : ManagedWindow) : WindowMode :=
  { id := managed.id
    maximized := managed.maximized
    fullscreen := managed.fullscreen
    minSize := managed.window.minSize }

@[simp] theorem restoreSplit_mode : (managed.restoreSplit default).mode = managed.mode := by
  unfold ManagedWindow.restoreSplit
  cases managed.tileRect <;> rfl

@[simp] theorem leaveSplit_mode : (managed.leaveSplit default).mode = managed.mode := by
  unfold ManagedWindow.leaveSplit
  split_ifs
  · exact restoreSplit_mode
  · rfl
  · rfl

@[simp] theorem clampFloatingToWork_mode {work : Rect} :
    (managed.clampFloatingToWork default out work).mode = managed.mode :=
  restoreSplit_mode

@[simp] theorem undoWindow_mode {saved : SplitUndoWindow} :
    (Desk.undoWindow saved managed).mode = managed.mode := by
  unfold Desk.undoWindow
  dsimp only
  split <;> rfl

theorem id_eq_of_mode {other : ManagedWindow} (h : other.mode = managed.mode) :
    other.id = managed.id := congrArg WindowMode.id h

@[simp] theorem maximize_id {work : Option Rect} : (managed.maximize work).id = managed.id := by
  unfold ManagedWindow.maximize
  cases managed.tileRect <;> cases work <;> rfl

@[simp] theorem unmaximize_id {work : Option Rect} : (managed.unmaximize work).id = managed.id := by
  unfold ManagedWindow.unmaximize
  cases managed.suspendedPane work <;> rfl

@[simp] theorem setMaximized_id {work ownWork : Option Rect} {maximized : Bool} :
    (managed.setMaximized work ownWork maximized).id = managed.id := by
  unfold ManagedWindow.setMaximized
  split_ifs <;> simp

@[simp] theorem enterFullscreen_id {rect : Option Rect} :
    (managed.enterFullscreen default rect out).id = managed.id := by
  unfold ManagedWindow.enterFullscreen ManagedWindow.fillOutput
  dsimp only
  split_ifs
  · exact restoreSplit_id
  · cases rect <;> exact restoreSplit_id

@[simp] theorem leaveFullscreen_id : managed.leaveFullscreen.id = managed.id := by
  unfold ManagedWindow.leaveFullscreen
  split_ifs <;> rfl

@[simp] theorem enterPane_id : (managed.enterPane default out tgt).1.id = managed.id := by
  unfold ManagedWindow.enterPane
  by_cases hs : managed.tileRect = some tgt
  · rw [if_pos hs]
    exact restoreSplit_id
  · rw [if_neg hs]
    split_ifs <;> rfl

@[simp] theorem placeInSplitRect_id {ownWork : Option Rect} :
    (managed.placeInSplitRect ownWork default out tgt).1.id = managed.id := by
  unfold ManagedWindow.placeInSplitRect
  split_ifs
  · rfl
  · exact (enterPane_id).trans unmaximize_id
  · exact enterPane_id

end ManagedWindow

namespace Desk

variable {desk next : Desk} {id : WindowId} {f : ManagedWindow → ManagedWindow}

def modes (desk : Desk) : List WindowMode := desk.windows.map ManagedWindow.mode

/-- Window ids are unique, and no window is in two modes. -/
structure Orderly (desk : Desk) : Prop where
  nodup : (desk.windows.map ManagedWindow.id).Nodup
  exclusive : ∀ managed ∈ desk.windows, managed.Exclusive

/-- The window with an id, if there is one, covers no work area. -/
def Uncovered (desk : Desk) (id : WindowId) : Prop :=
  ∀ managed ∈ desk.windows, managed.id = id → managed.Uncovered

instance (desk : Desk) (id : WindowId) : Decidable (desk.Uncovered id) :=
  inferInstanceAs (Decidable (∀ managed ∈ desk.windows, managed.id = id → managed.Uncovered))

/-- The same windows in the same modes, among outputs with the same names and work areas. -/
structure SameModes (desk next : Desk) : Prop where
  modes : next.modes = desk.modes
  work : next.around.workRecessForOutput = desk.around.workRecessForOutput
  names : next.around.outputByName = desk.around.outputByName

theorem SameModes.refl (desk : Desk) : SameModes desk desk := ⟨rfl, rfl, rfl⟩

theorem SameModes.trans {last : Desk} (h : SameModes desk next) (h' : SameModes next last) :
    SameModes desk last :=
  ⟨h'.modes.trans h.modes, h'.work.trans h.work, h'.names.trans h.names⟩

theorem uncovered_iff : desk.Uncovered id ↔
    ∀ mode ∈ desk.modes, mode.id = id → mode.maximized = false ∧ mode.fullscreen = false := by
  simp only [Uncovered, modes, forall_mem_map]
  rfl

theorem SameModes.uncovered (h : SameModes desk next) : next.Uncovered id ↔ desk.Uncovered id := by
  rw [uncovered_iff, uncovered_iff, h.modes]

theorem livePane_eq (desk : Desk) (id : WindowId) (output : OutputId)
    (placement : SavedSplitPlacement) :
    desk.livePane id output placement =
      (desk.modes.find? fun mode => mode.id = id).bind fun mode =>
        (desk.around.workRecessForOutput output).bind fun work =>
          (restoredSplitRectForMinimum work placement
            { w := max mode.minSize.w 1, h := max mode.minSize.h 1 }).map Prod.fst := by
  unfold livePane window modes
  rw [find?_map, Option.bind_map]
  rfl

theorem SameModes.livePane (h : SameModes desk next) (output : OutputId)
    (placement : SavedSplitPlacement) :
    next.livePane id output placement = desk.livePane id output placement := by
  rw [livePane_eq, livePane_eq, h.modes, h.work]

theorem mem_of_window {managed : ManagedWindow} (h : desk.window id = some managed) :
    managed ∈ desk.windows ∧ managed.id = id :=
  ⟨mem_of_find?_eq_some h, by simpa using find?_some h⟩

theorem Orderly.update (h : desk.Orderly)
    (hid : ∀ managed ∈ desk.windows, managed.id = id → (f managed).id = managed.id)
    (hf : ∀ managed ∈ desk.windows, managed.id = id → managed.Exclusive → (f managed).Exclusive) :
    (desk.update id f).Orderly := by
  constructor
  · show ((updateKey ManagedWindow.id id f desk.windows).map ManagedWindow.id).Nodup
    rw [map_updateKey hid]
    exact h.nodup
  · refine forall_mem_updateKey h.exclusive fun managed hm hk => ?_
    exact hf managed hm hk (h.exclusive managed hm)

theorem sameModes_update (desk : Desk) (id : WindowId)
    (hm : ∀ managed ∈ desk.windows, managed.id = id → (f managed).mode = managed.mode) :
    SameModes desk (desk.update id f) := ⟨map_updateKey hm, rfl, rfl⟩

/-- A window with a pane covers nothing, and neither does another one with its id. -/
theorem Orderly.uncovered_of_tile {managed : ManagedWindow} (h : desk.Orderly)
    (hm : managed ∈ desk.windows) (ht : managed.tileRect.isSome) :
    desk.Uncovered managed.id := by
  intro other ho hid
  obtain rfl := inj_on_of_nodup_map h.nodup ho hm hid
  exact (h.exclusive other ho).uncovered ht

theorem Orderly.uncovered_of_tileOf {rect : Rect} (h : desk.Orderly)
    (ht : desk.tileOf id = some rect) : desk.Uncovered id := by
  obtain ⟨managed, hw, hr⟩ := Option.bind_eq_some_iff.mp ht
  obtain ⟨hm, rfl⟩ := mem_of_window hw
  exact h.uncovered_of_tile hm (by simp [hr])

section

variable (h : desk.Orderly)
include h

theorem Orderly.configureSplitMember (hu : desk.Uncovered id) (target : Rect) :
    (desk.configureSplitMember id target).Orderly :=
  h.update (fun _ _ _ => rfl) fun managed hm hid he =>
    he.configureSplitMember (hu managed hm hid)

theorem Orderly.restoreSplitWindow (id : WindowId) : (desk.restoreSplitWindow id).Orderly :=
  h.update (fun _ _ _ => ManagedWindow.restoreSplit_id) fun _ _ _ he => he.restoreSplit

end

theorem sameModes_configureSplitMember (desk : Desk) (id : WindowId) (target : Rect) :
    SameModes desk (desk.configureSplitMember id target) :=
  sameModes_update desk id fun _ _ _ => rfl

/-- Only the windows count for the modes. -/
theorem orderly_congr (h : next.windows = desk.windows) : next.Orderly ↔ desk.Orderly := by
  constructor
  · rintro ⟨hn, he⟩
    rw [h] at hn he
    exact ⟨hn, he⟩
  · rintro ⟨hn, he⟩
    rw [← h] at hn he
    exact ⟨hn, he⟩

theorem sameModes_of_windows (h : next.windows = desk.windows) (ha : next.around = desk.around) :
    SameModes desk next :=
  ⟨congrArg (List.map ManagedWindow.mode) h, by rw [ha], by rw [ha]⟩

theorem recordSplitUndo_windows (desk : Desk) (ids : List WindowId) :
    (desk.recordSplitUndo ids).windows = desk.windows := by
  unfold recordSplitUndo
  dsimp only
  split_ifs <;> rfl

theorem recordSplitUndo_around (desk : Desk) (ids : List WindowId) :
    (desk.recordSplitUndo ids).around = desk.around := by
  unfold recordSplitUndo
  dsimp only
  split_ifs <;> rfl

theorem Orderly.recordSplitUndo (h : desk.Orderly) (ids : List WindowId) :
    (desk.recordSplitUndo ids).Orderly := (orderly_congr (recordSplitUndo_windows desk ids)).mpr h

theorem sameModes_recordSplitUndo (desk : Desk) (ids : List WindowId) :
    SameModes desk (desk.recordSplitUndo ids) :=
  sameModes_of_windows (recordSplitUndo_windows desk ids) (recordSplitUndo_around desk ids)

/-! ### Swaps and dividers -/

theorem Orderly.configureTwo {fst snd : WindowId} (h : desk.Orderly) (hf : desk.Uncovered fst)
    (hs : desk.Uncovered snd) (a b : Rect) :
    ((desk.configureSplitMember fst a).configureSplitMember snd b).Orderly := by
  refine (h.configureSplitMember hf a).configureSplitMember ?_ b
  exact (sameModes_configureSplitMember desk fst a).uncovered.mpr hs

theorem Orderly.swapPanes {fst snd : WindowId} {a b : Rect} (h : desk.Orderly)
    (hf : desk.Uncovered fst) (hsn : desk.Uncovered snd) :
    (desk.swapPanes fst snd a b).Orderly := by
  have hs := sameModes_recordSplitUndo desk [fst, snd]
  exact (h.recordSplitUndo _).configureTwo (hs.uncovered.mpr hf) (hs.uncovered.mpr hsn) b a

theorem Orderly.swapSplitPair (h : desk.Orderly) (fst snd : WindowId) :
    (desk.swapSplitPair fst snd).Orderly := by
  unfold Desk.swapSplitPair
  split
  next a b ha hb => exact h.swapPanes (h.uncovered_of_tileOf ha) (h.uncovered_of_tileOf hb)
  next => exact h

theorem maxByKey_mem {α : Type} {measure : α → ℤ} {as : List α} {a : α}
    (h : maxByKey measure as = some a) : a ∈ as := by
  induction as with
  | nil => cases h
  | cons b bs ih =>
    unfold maxByKey at h
    cases hb : maxByKey measure bs with
    | none =>
      rw [hb] at h
      cases h
      exact mem_cons_self
    | some best =>
      rw [hb] at h
      dsimp only at h
      split_ifs at h
      · cases h
        exact mem_cons_self
      · cases h
        exact mem_cons_of_mem _ (ih hb)

theorem uncovered_splitNeighbor {focused : ManagedWindow} {focusedRect : Rect}
    {req : SplitDirection} {neighbor : WindowId × Rect} (h : desk.Orderly)
    (hn : desk.splitNeighbor focused focusedRect req = some neighbor) :
    desk.Uncovered neighbor.1 := by
  obtain ⟨managed, hm, he⟩ := mem_filterMap.mp (maxByKey_mem hn)
  split_ifs at he
  obtain ⟨rect, hr, hs⟩ := Option.bind_eq_some_iff.mp he
  split_ifs at hs
  cases hs
  exact h.uncovered_of_tile (mem_filter.mp hm).1 (by simp [hr])

theorem Orderly.swapFocusedSplitNeighbor (h : desk.Orderly) (focused : WindowId)
    (req : SplitDirection) : (desk.swapFocusedSplitNeighbor focused req).Orderly := by
  unfold Desk.swapFocusedSplitNeighbor
  split_ifs
  · cases hs : desk.neighborSwap focused req with
    | none => exact h
    | some swapped =>
      simp only [neighborSwap, bind, Option.bind_eq_some_iff] at hs
      obtain ⟨managed, hw, rect, hr, neighbor, hn, work, -, -, -, -, -, hd⟩ := hs
      obtain ⟨hm, rfl⟩ := mem_of_window hw
      cases hd
      exact h.swapPanes (h.uncovered_of_tile hm (by simp [hr])) (uncovered_splitNeighbor h hn)
  · exact h

theorem Orderly.resizeSplitPair (h : desk.Orderly) (pair : SplitPair) (pos : ℤ) :
    (desk.resizeSplitPair pair pos).Orderly := by
  unfold Desk.resizeSplitPair
  split
  next first second hf hs =>
    dsimp only
    split
    next a b panes ha hb hp =>
      obtain ⟨hm, hid⟩ := mem_of_window hf
      obtain ⟨hm', hid'⟩ := mem_of_window hs
      refine h.configureTwo ?_ ?_ _ _
      · rw [← hid]
        exact h.uncovered_of_tile hm (by simp [ha])
      · rw [← hid']
        exact h.uncovered_of_tile hm' (by simp [hb])
    next => exact h
  next => exact h

theorem Orderly.resizeMember (h : desk.Orderly) (work : Rect) (resize : Rect → Rect) (id : WindowId)
    : (desk.resizeMember work resize id).Orderly := by
  unfold Desk.resizeMember
  split
  next => exact h
  next rect hr =>
    split_ifs
    · exact h.configureSplitMember (h.uncovered_of_tileOf hr) _
    · exact h

theorem Orderly.resizeMembers (h : desk.Orderly) (work : Rect) (resize : Rect → Rect)
    (ids : List WindowId) :
    (ids.foldl (fun desk id => desk.resizeMember work resize id) desk).Orderly := by
  induction ids generalizing desk with
  | nil => exact h
  | cons id ids ih => exact ih (h.resizeMember work resize id)

theorem Orderly.resizeSplitGridDivider (h : desk.Orderly) (divider : SplitGridDivider) (req : ℤ)
    : (desk.resizeSplitGridDivider divider req).Orderly := by
  unfold Desk.resizeSplitGridDivider
  split_ifs
  · exact h
  · exact h
  · exact (h.resizeMembers _ _ divider.before).resizeMembers _ _ divider.after

theorem Orderly.restoreSplitWindows (h : desk.Orderly) (ids : List WindowId) :
    (ids.foldl Desk.restoreSplitWindow desk).Orderly := by
  induction ids generalizing desk with
  | nil => exact h
  | cons id ids ih => exact ih (h.restoreSplitWindow id)

theorem Orderly.exitFocusedSplitGroup (h : desk.Orderly) (focused : WindowId) :
    (desk.exitFocusedSplitGroup focused).Orderly := by
  unfold Desk.exitFocusedSplitGroup
  split
  next => exact h
  next managed _ =>
    split
    next => exact (h.recordSplitUndo _).restoreSplitWindows _
    next => exact h

end Desk

end FocalDesk.Window
