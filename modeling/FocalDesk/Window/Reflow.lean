import FocalDesk.Window.Desk

/-! What becomes of panes when work areas and outputs change. -/
namespace FocalDesk.Window
open Library

/-- A pane for a placement on an output, if its work area has room for the window's minimum. -/
def ManagedWindow.restoredPane (managed : ManagedWindow) (work : Option Rect)
    (placement : SavedSplitPlacement) : Option Rect :=
  work.bind fun work =>
    (restoredSplitRectForMinimum work placement managed.splitMinSize).map Prod.fst

def Surroundings.reserve (around : Surroundings) (reserved : List OutputId) : Surroundings :=
  { around with
    outputs := around.outputs.map fun entry : OutputId × DeskOutput =>
      if entry.1 ∈ reserved then (entry.1, { entry.2 with normal := false }) else entry }

def ManagedWindow.isOn (managed : ManagedWindow) (outputs : List OutputId) : Bool :=
  managed.output.any fun output => decide (output ∈ outputs)

/-- A window that leaves a control panel loses its modes, but not its suspended pane. -/
def ManagedWindow.moveToNormal (managed : ManagedWindow) (output : OutputId)
    (workspace : WorkspaceId) (location : Point) : ManagedWindow :=
  { managed with
    output := some output
    workspace
    fullscreen := false
    maximized := false
    tileRect := none
    window := { managed.window with location := some location } }

structure OutputWindowSnapshot where
  id : WindowId
  outputName : Option String
  workspace : WorkspaceId
  split : Option SavedSplitPlacement
deriving DecidableEq, Repr

structure OutputTopologySnapshot where
  outputWorkspaces : List (String × WorkspaceId)
  primaryOutput : Option String
  focusedOutput : Option String
  windows : List OutputWindowSnapshot
deriving DecidableEq, Repr

/-- A window on its way through the restoration of the outputs: back into a pane, or to the
focused output with the modes it had. -/
inductive Rehome where
  | split (id : WindowId) (output : OutputId) (placement : SavedSplitPlacement)
  | home (id : WindowId) (fullscreen maximized : Bool)
deriving DecidableEq, Repr

def Rehome.isSplit : Rehome → Bool
  | .split .. => true
  | .home .. => false

namespace Desk

variable (desk : Desk)

/-- The pane that a placement gives a window, if there is one. -/
def livePane (id : WindowId) (output : OutputId) (placement : SavedSplitPlacement) : Option Rect :=
  (desk.window id).bind fun managed =>
    managed.restoredPane (desk.around.workRecessForOutput output) placement

/-- `restore_live_split_placement`, and nothing where it returns false. -/
def restoreLiveSplitPlacement (id : WindowId) (output : OutputId) (placement : SavedSplitPlacement)
    : Option Desk :=
  (desk.livePane id output placement).map fun target =>
    desk.update id fun managed => { managed with output := some output }.configureSplitMember target

def forgetDisplaced (id : WindowId) : Desk :=
  { desk with displacedSplitWindows := removeKey id desk.displacedSplitWindows }

def displace (id : WindowId) (displaced : DisplacedSplitWindow) : Desk :=
  { desk with displacedSplitWindows := putKey id displaced desk.displacedSplitWindows }

def rememberDisplacedSplit (id : WindowId) (output : OutputId) (placement : SavedSplitPlacement) :
    Desk :=
  match getKey output desk.around.outputs, desk.window id with
  | some shown, some managed =>
    desk.displace id { connector := shown.name, workspace := managed.workspace, placement }
  | _, _ => desk

/-- A pane that a changed work area keeps, or the window beside it. -/
def reflowSplitWindow (output : OutputId) (work : Rect) (entry : WindowId × SavedSplitPlacement)
    : Desk :=
  match desk.restoreLiveSplitPlacement entry.1 output entry.2 with
  | some placed => placed.forgetDisplaced entry.1
  | none =>
    (desk.rememberDisplacedSplit entry.1 output entry.2).clampFloatingWindowToWork entry.1 output
      work

def reflowSplitWindowsForOutput (output : OutputId) (oldWork : Rect) : Desk :=
  let placements := desk.windows.filterMap fun managed =>
    if managed.output = some output then
      (managed.tileRect.bind (savedSplitPlacement oldWork)).map fun placement =>
        (managed.id, placement)
    else none
  match desk.around.workRecessForOutput output with
  | none => desk
  | some work => placements.foldl (fun desk => desk.reflowSplitWindow output work) desk

def reflowConstrainedWindowsForOutput (output : OutputId) : Desk :=
  match desk.around.workRecessForOutput output with
  | none => desk
  | some work =>
    { desk with
      windows := desk.windows.map fun managed =>
        if managed.output = some output ∧ managed.mapped = true ∧ managed.minimized = false ∧
            (managed.fullscreen = true ∨ managed.maximized = true) then
          managed.configure work
        else managed }

/-- One displaced window, back in its pane and on its workspace when there is room for it. -/
def restoreDisplaced (entry : WindowId × OutputId × DisplacedSplitWindow) : Desk :=
  match desk.restoreLiveSplitPlacement entry.1 entry.2.1 entry.2.2.placement with
  | none => desk
  | some placed =>
    (placed.update entry.1 fun managed =>
      { managed with workspace := entry.2.2.workspace }).forgetDisplaced entry.1

/-- The displaced windows whose connector is there. -/
def displacedCandidates : List (WindowId × OutputId × DisplacedSplitWindow) :=
  desk.displacedSplitWindows.filterMap fun entry =>
    (desk.around.outputByName entry.2.connector).map fun output => (entry.1, output, entry.2)

def restoreDisplacedSplitWindows : Desk :=
  desk.displacedCandidates.foldl restoreDisplaced desk

/-- The outputs with a work area. -/
def currentWorkAreas : List (OutputId × Rect) :=
  desk.around.outputs.filterMap fun entry =>
    (desk.around.workRecessForOutput entry.1).map fun work => (entry.1, work)

/-- The outputs whose work area changed since the last tick, with what it was. -/
def changedWorkAreas : List (OutputId × Rect) :=
  desk.currentWorkAreas.filterMap fun entry =>
    ((getKey entry.1 desk.splitWorkAreas).filter fun old => old ≠ entry.2).map fun old =>
      (entry.1, old)

def reflowOutput (entry : OutputId × Rect) : Desk :=
  (desk.reflowSplitWindowsForOutput entry.1 entry.2).reflowConstrainedWindowsForOutput entry.1

/-- What every tick does. -/
def reconcileSplitWorkAreas : Desk :=
  (desk.changedWorkAreas.foldl reflowOutput
    { desk with splitWorkAreas := desk.currentWorkAreas }).restoreDisplacedSplitWindows

def outputName (output : OutputId) : Option String :=
  (getKey output desk.around.outputs).map DeskOutput.name

def snapshotWindow (managed : ManagedWindow) : OutputWindowSnapshot :=
  let output := managed.output.getD
    (managed.window.shownOn.getD desk.around.focusedOutput)
  { id := managed.id
    outputName := desk.outputName output
    workspace := managed.workspace
    split := (desk.around.workRecessForOutput output).bind fun work =>
      managed.tileRect.bind (savedSplitPlacement work) }

def snapshotOutputTopology : OutputTopologySnapshot :=
  { outputWorkspaces := desk.around.outputs.map fun entry => (entry.2.name, entry.2.activeWorkspace)
    primaryOutput := desk.outputName desk.around.primaryOutput
    focusedOutput := desk.outputName desk.around.focusedOutput
    windows := desk.windows.map desk.snapshotWindow }

/-- The outputs show the workspaces they showed before, by their connectors. -/
def restoreOutputWorkspaces (saved : List (String × WorkspaceId)) : Desk :=
  { desk with
    around := { desk.around with
      outputs := desk.around.outputs.map fun entry =>
        (entry.1, match saved.lookup entry.2.name with
          | none => entry.2
          | some workspace => { entry.2 with activeWorkspace := workspace }) } }

/-- Where a saved window goes: to the output it was on, or else to the focused one. -/
def rehomeTarget (saved : OutputWindowSnapshot) (managed : ManagedWindow) : Option OutputId :=
  match saved.outputName with
  | some name => desk.around.outputByName name
  | none => managed.window.shownOn

/-- A window whose output is there keeps its workspace with its pane; another one moves to the
focused output, and its pane is remembered for the time its connector comes back. -/
def rehomeWindow (focused : OutputId) (workspace : WorkspaceId) (saved : OutputWindowSnapshot) :
    Desk × List Rehome :=
  match desk.window saved.id with
  | none => (desk, [])
  | some managed =>
    match desk.rehomeTarget saved managed with
    | some target =>
      match saved.split with
      | some split =>
        (desk.update saved.id fun managed =>
          { managed with output := some target, workspace := saved.workspace },
          [.split saved.id target split])
      | none => (desk.update saved.id fun managed => { managed with output := some target }, [])
    | none =>
      let moved := desk.update saved.id fun managed =>
        { managed with output := some focused, workspace }
      (match saved.outputName, saved.split with
        | some connector, some placement =>
          moved.displace saved.id { connector, workspace := saved.workspace, placement }
        | _, _ => moved,
        [.home saved.id managed.fullscreen managed.maximized])

def rehomeWindows (focused : OutputId) (workspace : WorkspaceId) :
    Desk → List OutputWindowSnapshot → Desk × List Rehome
  | desk, [] => (desk, [])
  | desk, saved :: rest =>
    let first := desk.rehomeWindow focused workspace saved
    let others := rehomeWindows focused workspace first.1 rest
    (others.1, first.2 ++ others.2)

def rehomeSplit (id : WindowId) (output : OutputId) (placement : SavedSplitPlacement) : Desk :=
  match desk.restoreLiveSplitPlacement id output placement with
  | some placed => placed.forgetDisplaced id
  | none =>
    let remembered := desk.rememberDisplacedSplit id output placement
    match desk.around.workRecessForOutput output with
    | none => remembered
    | some work => remembered.clampFloatingWindowToWork id output work

/-- A window that lost its output takes its mode again on the focused one. -/
def rehomeMode (focused : OutputId) (work : Option Rect) (id : WindowId)
    (fullscreen maximized : Bool) : Desk :=
  let departed := desk.restoreSplitWindow id
  if fullscreen then
    (departed.update id fun managed => { managed with fullscreen := false }).setWindowFullscreen id
      true none
  else if maximized then
    (departed.update id fun managed => { managed with maximized := false }).setWindowMaximized id
      true
  else
    match work with
    | none => departed
    | some work => departed.clampFloatingWindowToWork id focused work

def rehomeOne (focused : OutputId) (work : Option Rect) : Rehome → Desk
  | .split id output placement => desk.rehomeSplit id output placement
  | .home id fullscreen maximized => desk.rehomeMode focused work id fullscreen maximized

def restoreOutputTopology (snapshot : OutputTopologySnapshot) : Desk :=
  let desk := desk.restoreOutputWorkspaces snapshot.outputWorkspaces
  let primary := (snapshot.primaryOutput.bind desk.around.outputByName).or
    (desk.around.outputs.head?.map Prod.fst)
  let focused := (snapshot.focusedOutput.bind desk.around.outputByName).or primary
  match primary, focused with
  | some primary, some focused =>
    let workspace := ((getKey focused desk.around.outputs).map DeskOutput.activeWorkspace).getD
      desk.around.activeWorkspace
    let desk := { desk with
      around := { desk.around with
        primaryOutput := primary, focusedOutput := focused, activeWorkspace := workspace } }
    let rehomed := rehomeWindows focused workspace desk snapshot.windows
    -- The panes come first, the windows without an output after all of them.
    let order := rehomed.2.filter Rehome.isSplit ++ rehomed.2.filter fun entry => !entry.isSplit
    (order.foldl (fun desk => desk.rehomeOne focused (desk.around.workRecessForOutput focused))
      rehomed.1).restoreDisplacedSplitWindows
  | _, _ => desk

/-- Where a window without a place is mapped on an output. -/
def defaultToplevelMapLocation (output : OutputId) : Point :=
  let corner : Option Point :=
    ((getKey output desk.around.outputs).bind DeskOutput.geometry).map fun geometry =>
      { x := geometry.loc.x + 100, y := geometry.loc.y + 100 }
  ((desk.around.workRecessForOutput output).map Rect.loc).getD (corner.getD { x := 100, y := 100 })

/-- Outputs that become control panels give their windows to a normal output. -/
def reserveOutputs (reserved : List OutputId) : Desk :=
  let desk := { desk with around := desk.around.reserve reserved }
  let fallback := desk.around.normalOutputForWindows
  let workspace := ((getKey fallback desk.around.outputs).map DeskOutput.activeWorkspace).getD
    desk.around.focusedWorkspace
  { desk with
    windows := desk.windows.map fun managed : ManagedWindow =>
      if managed.isOn reserved then
        managed.moveToNormal fallback workspace (desk.defaultToplevelMapLocation fallback)
      else managed }

end Desk

end FocalDesk.Window
