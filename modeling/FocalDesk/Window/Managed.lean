import Mathlib.Algebra.Order.Ring.Int

/-! Rectangles of windows and of work areas, and the panes a work area is split into. -/
namespace FocalDesk.Window

structure Point where
  x : ℤ
  y : ℤ
deriving DecidableEq, Repr

structure Size where
  w : ℤ
  h : ℤ
deriving DecidableEq, Repr

structure Rect where
  loc : Point
  size : Size
deriving DecidableEq, Repr

/-- Rust's `clamp` where the bounds are in order. -/
def clamp (value low high : ℤ) : ℤ := max low (min value high)

def Size.exceeds (minimum size : Size) : Bool := decide (minimum.w > size.w ∨ minimum.h > size.h)

def clampRectToBounds (geometry bounds : Rect) : Rect :=
  if bounds.size.w ≤ 0 ∨ bounds.size.h ≤ 0 then geometry
  else
    let w := clamp geometry.size.w 1 bounds.size.w
    let h := clamp geometry.size.h 1 bounds.size.h
    let maxX := max (bounds.loc.x + bounds.size.w - w) bounds.loc.x
    let maxY := max (bounds.loc.y + bounds.size.h - h) bounds.loc.y
    { loc := { x := clamp geometry.loc.x bounds.loc.x maxX,
               y := clamp geometry.loc.y bounds.loc.y maxY },
      size := { w, h } }

inductive SplitDirection where
  | left
  | center
  | right
  | top
  | bottom
  | topLeft
  | topRight
  | bottomLeft
  | bottomRight
deriving DecidableEq, Repr

inductive SplitAxis where
  | vertical
  | horizontal
deriving DecidableEq, Repr

def minSplitPaneWidth : ℤ := 800

def minSplitPaneHeight : ℤ := 500

/-- The place a pane has in its work area, unless it is none of a split. -/
def splitDirectionForRect (work rect : Rect) : Option SplitDirection :=
  let right := rect.loc.x + rect.size.w
  let bottom := rect.loc.y + rect.size.h
  let workRight := work.loc.x + work.size.w
  let workBottom := work.loc.y + work.size.h
  let full := rect.loc.y = work.loc.y ∧ rect.size.h = work.size.h
  let wide := rect.loc.x = work.loc.x ∧ rect.size.w = work.size.w
  let small := rect.size.w < work.size.w ∧ rect.size.h < work.size.h
  if full ∧ rect.loc.x = work.loc.x ∧ rect.size.w < work.size.w then some .left
  else if full ∧ rect.loc.x > work.loc.x ∧ right = workRight then some .right
  else if full ∧ rect.loc.x > work.loc.x ∧ right < workRight then some .center
  else if wide ∧ rect.loc.y = work.loc.y ∧ rect.size.h < work.size.h then some .top
  else if wide ∧ rect.loc.y > work.loc.y ∧ bottom = workBottom then some .bottom
  else if ¬small then none
  else
    match decide (rect.loc.x = work.loc.x), decide (right = workRight),
        decide (rect.loc.y = work.loc.y), decide (bottom = workBottom) with
    | true, false, true, false => some .topLeft
    | false, true, true, false => some .topRight
    | true, false, false, true => some .bottomLeft
    | false, true, false, true => some .bottomRight
    | _, _, _, _ => none

/-- A pane by its place and the thousandths of the work area at which its dividers lie. -/
structure SavedSplitPlacement where
  direction : SplitDirection
  xRatioPerMille : Option ℤ
  xEndRatioPerMille : Option ℤ
  yRatioPerMille : Option ℤ
deriving DecidableEq, Repr

def perMille (boundary start extent : ℤ) : ℤ :=
  clamp (((boundary - start) * 1000).tdiv (max extent 1)) 0 1000

def savedSplitPlacement (work tile : Rect) : Option SavedSplitPlacement := do
  let direction ← splitDirectionForRect work tile
  let right := tile.loc.x + tile.size.w
  let bottom := tile.loc.y + tile.size.h
  let xBoundary : Option ℤ :=
    match direction with
    | .center => some tile.loc.x
    | .left | .topLeft | .bottomLeft => some right
    | .right | .topRight | .bottomRight => some tile.loc.x
    | .top | .bottom => none
  let xEndBoundary : Option ℤ := if direction = .center then some right else none
  let yBoundary : Option ℤ :=
    match direction with
    | .top | .topLeft | .topRight => some bottom
    | .bottom | .bottomLeft | .bottomRight => some tile.loc.y
    | .left | .center | .right => none
  pure {
    direction
    xRatioPerMille := xBoundary.map fun boundary => perMille boundary work.loc.x work.size.w
    xEndRatioPerMille := xEndBoundary.map fun boundary => perMille boundary work.loc.x work.size.w
    yRatioPerMille := yBoundary.map fun boundary => perMille boundary work.loc.y work.size.h }

/-- The two panes beside a divider, unless their minimum sizes leave no room for it. -/
def resizedSplitRects (work : Rect) (axis : SplitAxis) (requested firstMin secondMin : ℤ) :
    Option (Rect × Rect) :=
  let start := match axis with
    | .vertical => work.loc.x
    | .horizontal => work.loc.y
  let extent := match axis with
    | .vertical => work.size.w
    | .horizontal => work.size.h
  let minBoundary := start + max firstMin 1
  let maxBoundary := start + extent - max secondMin 1
  if minBoundary > maxBoundary then none
  else
    let boundary := clamp requested minBoundary maxBoundary
    match axis with
    | .vertical => some
        ({ loc := work.loc, size := { w := boundary - work.loc.x, h := work.size.h } },
          { loc := { x := boundary, y := work.loc.y },
            size := { w := work.loc.x + work.size.w - boundary, h := work.size.h } })
    | .horizontal => some
        ({ loc := work.loc, size := { w := work.size.w, h := boundary - work.loc.y } },
          { loc := { x := work.loc.x, y := boundary },
            size := { w := work.size.w, h := work.loc.y + work.size.h - boundary } })

/-- The boundary that a saved ratio stands for. -/
def boundaryAt (start extent : ℤ) (ratio : ℤ) : ℤ := start + (extent * min ratio 1000).tdiv 1000

def restoredSplitRect (work : Rect) (saved : SavedSplitPlacement) :
    Option (Rect × SplitDirection) :=
  let xBoundary := saved.xRatioPerMille.map (boundaryAt work.loc.x work.size.w)
  let xEndBoundary := saved.xEndRatioPerMille.map (boundaryAt work.loc.x work.size.w)
  let yBoundary := saved.yRatioPerMille.map (boundaryAt work.loc.y work.size.h)
  let right := work.loc.x + work.size.w
  let bottom := work.loc.y + work.size.h
  let columns (x : ℤ) := resizedSplitRects work .vertical x minSplitPaneWidth minSplitPaneWidth
  let rows (y : ℤ) := resizedSplitRects work .horizontal y minSplitPaneHeight minSplitPaneHeight
  let quadrant (pane : ℤ → ℤ → Rect) : Option Rect := do
    if work.size.w < minSplitPaneWidth * 2 ∨ work.size.h < minSplitPaneHeight * 2 then none
    let x := clamp (← xBoundary) (work.loc.x + minSplitPaneWidth) (right - minSplitPaneWidth)
    let y := clamp (← yBoundary) (work.loc.y + minSplitPaneHeight) (bottom - minSplitPaneHeight)
    pure (pane x y)
  let pane : Option Rect :=
    match saved.direction with
    | .center => do
      let start := clamp (← xBoundary) work.loc.x right
      let finish := clamp (← xEndBoundary) start right
      if finish - start < minSplitPaneWidth then none
      pure {
        loc := { x := start, y := work.loc.y }
        size := { w := finish - start, h := work.size.h } }
    | .left => do
      let panes ← columns (← xBoundary)
      pure panes.1
    | .right => do
      let panes ← columns (← xBoundary)
      pure panes.2
    | .top => do
      let panes ← rows (← yBoundary)
      pure panes.1
    | .bottom => do
      let panes ← rows (← yBoundary)
      pure panes.2
    | .topLeft => quadrant fun x y =>
      { loc := work.loc, size := { w := x - work.loc.x, h := y - work.loc.y } }
    | .topRight => quadrant fun x y =>
      { loc := { x, y := work.loc.y }, size := { w := right - x, h := y - work.loc.y } }
    | .bottomLeft => quadrant fun x y =>
      { loc := { x := work.loc.x, y }, size := { w := x - work.loc.x, h := bottom - y } }
    | .bottomRight => quadrant fun x y =>
      { loc := { x, y }, size := { w := right - x, h := bottom - y } }
  pane.map fun target => (target, saved.direction)

def restoredSplitRectForMinimum (work : Rect) (saved : SavedSplitPlacement) (minimum : Size) :
    Option (Rect × SplitDirection) :=
  (restoredSplitRect work saved).filter fun restored => !minimum.exceeds restored.1.size

/-- Geometry for a window that never had one of its own: centred in the work area. -/
def defaultUnmaximizedToplevelGeometry (work : Option Rect) : Rect :=
  match work with
  | none => { loc := { x := 100, y := 100 }, size := { w := 1280, h := 800 } }
  | some work =>
    let w := max (min 1280 work.size.w) (min 640 work.size.w)
    let h := max (min 800 work.size.h) (min 480 work.size.h)
    { loc := { x := work.loc.x + (work.size.w - w).tdiv 2,
               y := work.loc.y + (work.size.h - h).tdiv 2 },
      size := { w, h } }

example : splitDirectionForRect ⟨⟨0, 0⟩, ⟨1920, 1080⟩⟩ ⟨⟨960, 0⟩, ⟨960, 1080⟩⟩ = some .right := by
  decide

end FocalDesk.Window

/-! One managed window: its mode flags, the rectangles it keeps, and the changes of its mode. -/
namespace FocalDesk.Window

abbrev WindowId := ℕ

abbrev OutputId := ℕ

/-- A number of a workspace, from 1. -/
abbrev WorkspaceId := ℕ

/-- The client's side: where and on which output the space shows it, how large its surface and
its window geometry are, and the size it was asked for last. -/
structure ClientWindow where
  location : Option Point
  shownOn : Option OutputId
  surface : Size
  geometry : Size
  minSize : Size
  configured : Option Size
deriving DecidableEq, Repr

structure ManagedWindow where
  id : WindowId
  window : ClientWindow
  isDialogLike : Bool
  mapped : Bool
  minimized : Bool
  floating : Bool
  maximized : Bool
  fullscreen : Bool
  workspace : WorkspaceId
  output : Option OutputId
  tileRect : Option Rect
  splitRestoreRect : Option Rect
  suspendedTileRect : Option Rect
  floatRect : Option Rect
  restoreRect : Option Rect
deriving DecidableEq, Repr

namespace ManagedWindow

variable (managed : ManagedWindow)

/-- The bounding box of the window in the space. -/
def elementBbox : Option Rect :=
  managed.window.location.map fun loc => { loc, size := managed.window.surface }

/-- A configure event for a rectangle, and the window mapped at its corner. -/
def configure (rect : Rect) : ManagedWindow :=
  { managed with
    window := { managed.window with location := some rect.loc, configured := some rect.size } }

def splitMinSize : Size :=
  { w := max managed.window.minSize.w 1, h := max managed.window.minSize.h 1 }

/-- The rectangle to come back to: the one it is shown at, else its floating one. -/
def currentRect (loc : Point) : Rect :=
  (managed.elementBbox.or managed.floatRect).getD { loc, size := managed.window.geometry }

def savedRect : Rect :=
  managed.restoreRect.getD
    (managed.floatRect.getD { loc := { x := 100, y := 100 }, size := managed.window.geometry })

/-- The retained pane, when it still is one of the work area. -/
def suspendedPane (work : Option Rect) : Option Rect := do
  let tile ← managed.suspendedTileRect
  let _ ← splitDirectionForRect (← work) tile
  pure tile

/-- `set_window_maximized(true)` on a window that is not: without a work area only the flag is
set. -/
def maximize (work : Option Rect) : ManagedWindow :=
  let suspended :=
    match managed.tileRect with
    | none => managed
    | some tile => { managed with tileRect := none, suspendedTileRect := some tile }
  match work with
  | none => { suspended with maximized := true }
  | some work =>
    let restore := managed.tileRect.getD (managed.currentRect work.loc)
    { suspended with restoreRect := some restore, maximized := true }.configure work

/-- `set_window_maximized(false)` on a window that is. -/
def unmaximize (work : Option Rect) : ManagedWindow :=
  let restore := managed.savedRect
  let restored := { managed with
    suspendedTileRect := none
    restoreRect := none
    maximized := false }
  match managed.suspendedPane work with
  | some tile => { restored with tileRect := some tile }.configure restore
  | none => { restored with floatRect := some restore }.configure restore

/-- `pointerWork` is the work area a window is maximized to, `ownWork` that of its own output. -/
def setMaximized (pointerWork ownWork : Option Rect) (maximized : Bool) : ManagedWindow :=
  if managed.maximized = maximized then managed
  else if maximized then managed.maximize pointerWork
  else managed.unmaximize ownWork

def restoreSplit (default : Rect) : ManagedWindow :=
  match managed.tileRect with
  | none => managed
  | some _ =>
    let restore := (managed.splitRestoreRect.or managed.floatRect).getD default
    { managed with
      tileRect := none
      suspendedTileRect := none
      splitRestoreRect := none
      floatRect := some restore }.configure restore

/-- `restore_all_split_windows` for one window. -/
def leaveSplit (default : Rect) : ManagedWindow :=
  if managed.tileRect.isSome then managed.restoreSplit default
  else if managed.suspendedTileRect.isSome then
    { managed with
      suspendedTileRect := none
      splitRestoreRect := none
      restoreRect := managed.splitRestoreRect.or managed.restoreRect }
  else managed

/-- The window over an area of an output, unless it is fullscreen already. -/
def fillOutput (area : Option Rect) (output : OutputId) : ManagedWindow :=
  if managed.fullscreen then managed
  else
    match area with
    | none => { managed with fullscreen := true }
    | some area =>
      { managed with
        restoreRect := some (managed.currentRect area.loc)
        fullscreen := true
        maximized := false
        output := some output }.configure area

/-- `set_window_fullscreen(true)`: the window leaves the panes for good. -/
def enterFullscreen (default : Rect) (area : Option Rect) (output : OutputId) : ManagedWindow :=
  { managed.restoreSplit default with
    suspendedTileRect := none
    splitRestoreRect := none }.fillOutput area output

/-- `set_window_fullscreen(false)`. -/
def leaveFullscreen : ManagedWindow :=
  if managed.fullscreen then
    let restore := managed.savedRect
    { managed with
      restoreRect := none
      fullscreen := false
      floatRect := some restore }.configure restore
  else managed

/-- Whether a window can be a pane at all. -/
def splittable : Bool :=
  managed.mapped && !managed.fullscreen && !managed.minimized && !managed.isDialogLike

/-- The pane for a window that is not maximized: the window after it, and whether it was placed.
A window that is already in the pane leaves it. -/
def enterPane (default : Rect) (output : OutputId) (target : Rect) : ManagedWindow × Bool :=
  if managed.tileRect = some target then (managed.restoreSplit default, false)
  else if managed.window.minSize.exceeds target.size then (managed, false)
  else
    let restore := managed.currentRect target.loc
    ({ managed with
        splitRestoreRect :=
          if managed.tileRect.isNone then some restore else managed.splitRestoreRect
        suspendedTileRect := none
        tileRect := some target
        output := some output }.configure target, true)

/-- `place_window_in_split_rect` for the window itself. -/
def placeInSplitRect (ownWork : Option Rect) (default : Rect) (output : OutputId) (target : Rect) :
    ManagedWindow × Bool :=
  if !managed.splittable then (managed, false)
  else if managed.maximized then (managed.unmaximize ownWork).enterPane default output target
  else managed.enterPane default output target

/-- `configure_split_member` for the window itself. -/
def configureSplitMember (target : Rect) : ManagedWindow :=
  { managed with tileRect := some target }.configure target

/-- `clamp_floating_window_to_work` for the window itself. -/
def clampFloatingToWork (default : Rect) (output : OutputId) (work : Rect) : ManagedWindow :=
  let departed := managed.restoreSplit default
  let geometry := clampRectToBounds ((departed.floatRect.or departed.elementBbox).getD
    { loc := work.loc, size := departed.window.geometry }) work
  { departed with output := some output, floatRect := some geometry }.configure geometry

end ManagedWindow

end FocalDesk.Window
