import FocalDesk.Library.AssocList
import FocalDesk.Library.Keyed
import FocalDesk.Window.Managed

/-! The windows and outputs of the desktop, and the operations that change a window's mode. -/
namespace FocalDesk.Window
open Library

/-- An output, with the part of it that its panels leave to windows. -/
structure DeskOutput where
  name : String
  normal : Bool
  work : Option Rect
  geometry : Option Rect
  activeWorkspace : WorkspaceId
deriving DecidableEq, Repr

structure SplitUndoWindow where
  id : WindowId
  output : Option OutputId
  workspace : WorkspaceId
  tileRect : Option Rect
  floatRect : Option Rect
  splitRestoreRect : Option Rect
  suspendedTileRect : Option Rect
deriving DecidableEq, Repr

/-- A window that had a pane on a connector that is gone, or too small for it. -/
structure DisplacedSplitWindow where
  connector : String
  workspace : WorkspaceId
  placement : SavedSplitPlacement
deriving DecidableEq, Repr

/-- What the operations on windows read of the desktop besides the windows. -/
structure Surroundings where
  outputs : List (OutputId × DeskOutput)
  primaryOutput : OutputId
  focusedOutput : OutputId
  activeWorkspace : WorkspaceId
  outputUnderPointer : Option OutputId
  splitScreenEnabled : Bool
deriving DecidableEq, Repr

namespace Surroundings

variable (around : Surroundings)

def workRecessForOutput (output : OutputId) : Option Rect :=
  (getKey output around.outputs).bind DeskOutput.work

def outputAcceptsWindows (output : OutputId) : Bool :=
  (getKey output around.outputs).any DeskOutput.normal

/-- The workspace the focused output shows. -/
def focusedWorkspace : WorkspaceId :=
  ((getKey around.focusedOutput around.outputs).map DeskOutput.activeWorkspace).getD
    around.activeWorkspace

/-- Where windows go when their own output takes none. -/
def normalOutputForWindows : OutputId :=
  if around.outputAcceptsWindows around.focusedOutput then around.focusedOutput
  else if around.outputAcceptsWindows around.primaryOutput then around.primaryOutput
  else ((around.outputs.find? fun entry => entry.2.normal).map Prod.fst).getD around.focusedOutput

def outputByName (name : String) : Option OutputId :=
  (around.outputs.find? fun entry => entry.2.name = name).map Prod.fst

/-- The area a fullscreen window fills: that of its output, else that of the primary one. -/
def fullscreenRect (output : OutputId) : Option Rect :=
  let area (id : OutputId) :=
    (around.workRecessForOutput id).or ((getKey id around.outputs).bind DeskOutput.geometry)
  (area output).or (area around.primaryOutput)

/-- The output a window is maximized on. -/
def maximizeOutput (managed : ManagedWindow) : OutputId :=
  (around.outputUnderPointer.or managed.output).getD around.focusedOutput

def fullscreenOutput (managed : ManagedWindow) (requested : Option OutputId) : OutputId :=
  (((requested.or managed.output).or around.outputUnderPointer).filter
    around.outputAcceptsWindows).getD around.normalOutputForWindows

def defaultGeometry (managed : ManagedWindow) : Rect :=
  defaultUnmaximizedToplevelGeometry
    (around.workRecessForOutput (managed.output.getD around.focusedOutput))

/-- The work area of a window's own output. -/
def ownWork (managed : ManagedWindow) : Option Rect :=
  managed.output.bind around.workRecessForOutput

end Surroundings

/-- The desktop as the window operations see it. -/
structure Desk where
  around : Surroundings
  windows : List ManagedWindow
  splitUndo : Option (List SplitUndoWindow)
  displacedSplitWindows : List (WindowId × DisplacedSplitWindow)
  splitWorkAreas : List (OutputId × Rect)
deriving DecidableEq, Repr

namespace Desk

variable (desk : Desk) (id : WindowId)

def window : Option ManagedWindow := desk.windows.find? fun managed => managed.id = id

/-- A change of the window with an id; the ids of the windows differ. -/
def update (change : ManagedWindow → ManagedWindow) : Desk :=
  { desk with windows := updateKey ManagedWindow.id id change desk.windows }

def setWindowMaximized (maximized : Bool) : Desk :=
  desk.update id fun managed =>
    managed.setMaximized (desk.around.workRecessForOutput (desk.around.maximizeOutput managed))
      (desk.around.ownWork managed) maximized

def restoreSplitWindow : Desk :=
  desk.update id fun managed => managed.restoreSplit (desk.around.defaultGeometry managed)

def restoreAllSplitWindows : Desk :=
  { desk with
    windows := desk.windows.map fun managed =>
      managed.leaveSplit (desk.around.defaultGeometry managed) }

def setWindowFullscreen (fullscreen : Bool) (requested : Option OutputId) : Desk :=
  desk.update id fun managed =>
    if fullscreen then
      let output := desk.around.fullscreenOutput managed requested
      managed.enterFullscreen (desk.around.defaultGeometry managed)
        (desk.around.fullscreenRect output) output
    else managed.leaveFullscreen

def placeWindowInSplitRect (output : OutputId) (target : Rect) : Desk :=
  if !desk.around.outputAcceptsWindows output || !desk.around.splitScreenEnabled then desk
  else
    { desk with displacedSplitWindows := removeKey id desk.displacedSplitWindows }.update id
      fun managed =>
        (managed.placeInSplitRect (desk.around.ownWork managed)
          (desk.around.defaultGeometry managed) output target).1

def configureSplitMember (target : Rect) : Desk :=
  desk.update id fun managed => managed.configureSplitMember target

def clampFloatingWindowToWork (output : OutputId) (work : Rect) : Desk :=
  desk.update id fun managed =>
    managed.clampFloatingToWork (desk.around.defaultGeometry managed) output work

/-- What is kept of a window for the undo. -/
def undoRecord (managed : ManagedWindow) : SplitUndoWindow :=
  { id := managed.id
    output := managed.output
    workspace := managed.workspace
    tileRect := managed.tileRect
    floatRect := managed.floatRect
    splitRestoreRect := managed.splitRestoreRect
    suspendedTileRect := managed.suspendedTileRect }

def recordSplitUndo (ids : List WindowId) : Desk :=
  let saved := ids.eraseDups.filterMap fun id => (desk.window id).map undoRecord
  if saved.isEmpty then desk else { desk with splitUndo := some saved }

/-- What the undo writes back to one window. -/
def undoWindow (saved : SplitUndoWindow) (managed : ManagedWindow) : ManagedWindow :=
  let restored :=
    { managed with
      output := saved.output
      workspace := saved.workspace
      tileRect := saved.tileRect
      floatRect := saved.floatRect
      splitRestoreRect := saved.splitRestoreRect
      suspendedTileRect := saved.suspendedTileRect }
  match (saved.tileRect.or saved.floatRect).or saved.splitRestoreRect with
  | none => restored
  | some target => restored.configure target

def undoLastSplitAction : Desk :=
  match desk.splitUndo with
  | none => desk
  | some saved =>
    saved.foldl (fun desk saved => desk.update saved.id (undoWindow saved))
      { desk with splitUndo := none }

/-- The windows of one split group. -/
def splitGroup (output : OutputId) (workspace : WorkspaceId) : List ManagedWindow :=
  desk.windows.filter fun managed =>
    managed.mapped && !managed.minimized && (managed.output == some output) &&
      (managed.workspace == workspace) && managed.tileRect.isSome

end Desk

end FocalDesk.Window

/-! Swapping the panes of a split group, moving its dividers, and leaving it. -/
namespace FocalDesk.Window
open Library

structure SplitPair where
  first : WindowId
  second : WindowId
  work : Rect
  axis : SplitAxis
deriving DecidableEq, Repr

structure SplitGridDivider where
  before : List WindowId
  after : List WindowId
  work : Rect
  axis : SplitAxis
deriving DecidableEq, Repr

def overlap (start extent start' extent' : ℤ) : ℤ :=
  min (start + extent) (start' + extent') - max start start'

/-- How much of an edge a pane shares with the focused one on the side asked for. -/
def sharedEdge (requested : SplitDirection) (focused candidate : Rect) : ℤ :=
  let rows := overlap candidate.loc.y candidate.size.h focused.loc.y focused.size.h
  let columns := overlap candidate.loc.x candidate.size.w focused.loc.x focused.size.w
  match requested with
  | .left => if candidate.loc.x + candidate.size.w = focused.loc.x then rows else 0
  | .right => if focused.loc.x + focused.size.w = candidate.loc.x then rows else 0
  | .top => if candidate.loc.y + candidate.size.h = focused.loc.y then columns else 0
  | .bottom => if focused.loc.y + focused.size.h = candidate.loc.y then columns else 0
  | .center | .topLeft | .topRight | .bottomLeft | .bottomRight => 0

/-- A pane with its far edge at the divider. -/
def Rect.endAt (axis : SplitAxis) (boundary : ℤ) (rect : Rect) : Rect :=
  match axis with
  | .vertical => { rect with size := { rect.size with w := boundary - rect.loc.x } }
  | .horizontal => { rect with size := { rect.size with h := boundary - rect.loc.y } }

/-- A pane with its near edge at the divider. -/
def Rect.startAt (axis : SplitAxis) (boundary : ℤ) (rect : Rect) : Rect :=
  match axis with
  | .vertical =>
    { loc := { rect.loc with x := boundary },
      size := { rect.size with w := rect.loc.x + rect.size.w - boundary } }
  | .horizontal =>
    { loc := { rect.loc with y := boundary },
      size := { rect.size with h := rect.loc.y + rect.size.h - boundary } }

/-- The last of the entries with the largest measure. -/
def maxByKey {α : Type} (measure : α → ℤ) : List α → Option α
  | [] => none
  | a :: as =>
    match maxByKey measure as with
    | none => some a
    | some best => if measure best < measure a then some a else some best

namespace Desk

variable (desk : Desk)

def tileOf (id : WindowId) : Option Rect := (desk.window id).bind ManagedWindow.tileRect

def swapPanes (first second : WindowId) (firstRect secondRect : Rect) : Desk :=
  ((desk.recordSplitUndo [first, second]).configureSplitMember first
    secondRect).configureSplitMember second firstRect

def swapSplitPair (first second : WindowId) : Desk :=
  match desk.tileOf first, desk.tileOf second with
  | some firstRect, some secondRect => desk.swapPanes first second firstRect secondRect
  | _, _ => desk

/-- The pane beside the focused one on the side asked for. -/
def splitNeighbor (focused : ManagedWindow) (focusedRect : Rect) (requested : SplitDirection) :
    Option (WindowId × Rect) :=
  let output := focused.output.getD desk.around.focusedOutput
  let candidates := (desk.splitGroup output focused.workspace).filterMap fun managed =>
    if managed.id = focused.id then none
    else managed.tileRect.bind fun rect =>
      if sharedEdge requested focusedRect rect > 0 then some (managed.id, rect) else none
  maxByKey (fun candidate => sharedEdge requested focusedRect candidate.2) candidates

/-- The swap with that neighbor, if both panes are panes of the work area. -/
def neighborSwap (focused : WindowId) (requested : SplitDirection) : Option Desk := do
  let managed ← desk.window focused
  let focusedRect ← managed.tileRect
  let neighbor ← desk.splitNeighbor managed focusedRect requested
  let work ← desk.around.workRecessForOutput (managed.output.getD desk.around.focusedOutput)
  let _ ← splitDirectionForRect work neighbor.2
  let _ ← splitDirectionForRect work focusedRect
  pure (desk.swapPanes focused neighbor.1 focusedRect neighbor.2)

def swapFocusedSplitNeighbor (focused : WindowId) (requested : SplitDirection) : Desk :=
  if desk.around.splitScreenEnabled then (desk.neighborSwap focused requested).getD desk else desk

/-- `resize_split_pair`, for the pair the output shows at that moment. -/
def resizeSplitPair (pair : SplitPair) (position : ℤ) : Desk :=
  match desk.window pair.first, desk.window pair.second with
  | some first, some second =>
    let firstMin := match pair.axis with
      | .vertical => max first.splitMinSize.w minSplitPaneWidth
      | .horizontal => max first.splitMinSize.h minSplitPaneHeight
    let secondMin := match pair.axis with
      | .vertical => max second.splitMinSize.w minSplitPaneWidth
      | .horizontal => max second.splitMinSize.h minSplitPaneHeight
    match first.tileRect, second.tileRect,
        resizedSplitRects pair.work pair.axis position firstMin secondMin with
    | some _, some _, some panes =>
      (desk.configureSplitMember pair.first panes.1).configureSplitMember pair.second panes.2
    | _, _, _ => desk
  | _, _ => desk

/-- One pane beside a divider that moves; what would be no pane of the work area stays. -/
def resizeMember (work : Rect) (resize : Rect → Rect) (id : WindowId) : Desk :=
  match desk.tileOf id with
  | none => desk
  | some rect =>
    if (splitDirectionForRect work (resize rect)).isSome then
      desk.configureSplitMember id (resize rect)
    else desk

/-- The least boundary that leaves every pane before the divider its minimum. -/
def dividerMinimum (divider : SplitGridDivider) : ℤ :=
  divider.before.foldl (fun least id =>
    match desk.window id, desk.tileOf id with
    | some managed, some rect =>
      max least (match divider.axis with
        | .vertical => rect.loc.x + max managed.splitMinSize.w minSplitPaneWidth
        | .horizontal => rect.loc.y + max managed.splitMinSize.h minSplitPaneHeight)
    | _, _ => least)
    (match divider.axis with
      | .vertical => divider.work.loc.x
      | .horizontal => divider.work.loc.y)

def dividerMaximum (divider : SplitGridDivider) : ℤ :=
  divider.after.foldl (fun most id =>
    match desk.window id, desk.tileOf id with
    | some managed, some rect =>
      min most (match divider.axis with
        | .vertical => rect.loc.x + rect.size.w - max managed.splitMinSize.w minSplitPaneWidth
        | .horizontal => rect.loc.y + rect.size.h - max managed.splitMinSize.h minSplitPaneHeight)
    | _, _ => most)
    (match divider.axis with
      | .vertical => divider.work.loc.x + divider.work.size.w
      | .horizontal => divider.work.loc.y + divider.work.size.h)

/-- `resize_split_grid_divider`, for the divider the output shows at that moment. -/
def resizeSplitGridDivider (divider : SplitGridDivider) (requested : ℤ) : Desk :=
  if (divider.before ++ divider.after).any fun id => (desk.tileOf id).isNone then desk
  else if desk.dividerMinimum divider > desk.dividerMaximum divider then desk
  else
    let boundary := clamp requested (desk.dividerMinimum divider) (desk.dividerMaximum divider)
    divider.after.foldl
      (fun desk id => desk.resizeMember divider.work (Rect.startAt divider.axis boundary) id)
      (divider.before.foldl
        (fun desk id => desk.resizeMember divider.work (Rect.endAt divider.axis boundary) id) desk)

def exitFocusedSplitGroup (focused : WindowId) : Desk :=
  match desk.window focused with
  | none => desk
  | some managed =>
    match managed.output, managed.tileRect with
    | some output, some _ =>
      let ids := (desk.splitGroup output managed.workspace).map ManagedWindow.id
      ids.foldl restoreSplitWindow (desk.recordSplitUndo ids)
    | _, _ => desk

end Desk

end FocalDesk.Window
