import FocalDesk.Text
import FocalDesk.Window.Numbers

/-! The named workspaces of a desktop: creating, showing and deleting them, and the windows that
are sent to one. -/
namespace FocalDesk.Window
open Library List Option

/-- The pane that waits for the user to choose a window. -/
structure SplitAssistState where
  source : WindowId
  output : OutputId
  workspace : WorkspaceId
deriving DecidableEq, Repr

structure WorkspaceTransition where
  origin : WorkspaceId
  target : WorkspaceId
deriving DecidableEq, Repr

/-- A rule for new windows. `sanitized` drops a workspace number 0. -/
structure WindowRule where
  workspace : Option WorkspaceId
  output : Option String
  floating : Option Bool
  sanitized : ∀ number ∈ workspace, 0 < number

/-- `stacking` holds the windows of the space, the topmost first. -/
structure Workspaces where
  desk : Desk
  workspaceNames : List String
  workspaceFocus : List ((OutputId × WorkspaceId) × WindowId)
  focusedWindow : Option WindowId
  pendingSplitAssist : Option SplitAssistState
  workspaceTransitions : List (OutputId × WorkspaceTransition)
  animationsEnabled : Bool
  stacking : List WindowId
deriving DecidableEq, Repr

/-- A workspace number after the deletion of one. -/
def shiftDown (deleted number : ℕ) : ℕ :=
  if number > deleted then number - 1 else number

/-- What an output shows after the deletion. -/
def repoint (deleted fallback shown : ℕ) : ℕ :=
  if shown = deleted then fallback else shiftDown deleted shown

def Surroundings.showing (around : Surroundings) (f : OutputId → WorkspaceId → WorkspaceId) :
    Surroundings :=
  { around with
    outputs := around.outputs.map fun entry : OutputId × DeskOutput =>
      (entry.1, { entry.2 with activeWorkspace := f entry.1 entry.2.activeWorkspace }) }

namespace Workspaces

variable (s : Workspaces)

def hasWorkspace (number : ℕ) : Bool :=
  decide (number ≠ 0 ∧ number ≤ s.workspaceNames.length)

def focusedWorkspace : WorkspaceId := s.desk.around.focusedWorkspace

/-- The output a window belongs to, or else the one that shows most of it. -/
def outputOf (managed : ManagedWindow) : OutputId :=
  managed.output.getD (managed.window.shownOn.getD s.desk.around.focusedOutput)

def focusWindowId (id : WindowId) : Workspaces :=
  match s.desk.window id with
  | none => s
  | some managed =>
    { s with
      focusedWindow := some id
      workspaceFocus := putKey (s.outputOf managed, managed.workspace) id s.workspaceFocus }

/-- A window that can take the focus on a workspace of the focused output. -/
def focusable (workspace : WorkspaceId) (id : WindowId) : Bool :=
  (s.desk.window id).any fun managed =>
    managed.mapped && !managed.minimized && decide (managed.workspace = workspace) &&
      decide (s.outputOf managed = s.desk.around.focusedOutput)

def focusTopWindowOnFocusedOutput (workspace : WorkspaceId) : Workspaces :=
  let remembered := (getKey (s.desk.around.focusedOutput, workspace) s.workspaceFocus).filter
    (s.focusable workspace)
  match remembered.or (s.stacking.find? (s.focusable workspace)) with
  | none => { s with focusedWindow := none }
  | some id => s.focusWindowId id

/-- The focused window is remembered for the workspace it is on. -/
def rememberFocus (previous : WorkspaceId) : Workspaces :=
  match s.focusedWindow with
  | none => s
  | some id =>
    if (s.desk.window id).any fun managed =>
        managed.mapped && !managed.minimized && decide (managed.workspace = previous) then
      { s with
        workspaceFocus := putKey (s.desk.around.focusedOutput, previous) id s.workspaceFocus }
    else s

/-- The focused output shows a workspace. -/
def showOnFocused (workspace : WorkspaceId) : Workspaces :=
  { s with
    desk := { s.desk with
      around := { s.desk.around.showing fun output shown =>
          if output = s.desk.around.focusedOutput then workspace else shown with
        activeWorkspace := workspace } } }

def activateFocusedWorkspace (workspace : WorkspaceId) : Workspaces :=
  ((s.rememberFocus s.focusedWorkspace).showOnFocused workspace).focusTopWindowOnFocusedOutput
    workspace

def startTransition (origin target : WorkspaceId) : Workspaces :=
  { s with
    workspaceTransitions :=
      putKey s.desk.around.focusedOutput { origin, target } s.workspaceTransitions }

def setFocusedWorkspace (workspace : WorkspaceId) : Workspaces :=
  if !s.hasWorkspace workspace then s
  else if s.focusedWorkspace = workspace then s
  else if s.animationsEnabled then
    (s.activateFocusedWorkspace workspace).startTransition s.focusedWorkspace workspace
  else s.activateFocusedWorkspace workspace

/-- `update_interactive_workspace_transition` with a swipe to the next or the previous one. -/
def updateInteractiveTransition (forward : Bool) : Workspaces :=
  if !s.animationsEnabled then s
  else
    let target := if forward then s.focusedWorkspace + 1 else s.focusedWorkspace - 1
    if s.hasWorkspace target then s.startTransition s.focusedWorkspace target
    else
      { s with
        workspaceTransitions := removeKey s.desk.around.focusedOutput s.workspaceTransitions }

def settleInteractiveTransition (target : Option WorkspaceId) : Workspaces :=
  match getKey s.desk.around.focusedOutput s.workspaceTransitions, target with
  | none, none => s
  | none, some target => s.setFocusedWorkspace target
  | some transition, target =>
    if target = some transition.target then s.activateFocusedWorkspace transition.target else s

def createWorkspaceFromDialog (name : String) : Workspaces :=
  let number := s.workspaceNames.length + 1
  let name := if (trim name).isEmpty then "Workspace " ++ toString number else trim name
  { s with workspaceNames := s.workspaceNames ++ [name] }.setFocusedWorkspace number

/-- The number of the focused workspace, which is the one that goes. -/
def deletedNumber : ℕ := min (max s.focusedWorkspace 1) s.workspaceNames.length

/-- The workspace that the outputs of the deleted one show. -/
def fallback : ℕ := min (s.deletedNumber - 1) (s.workspaceNames.length - 2) + 1

/-- The numbers above the deleted one shift down in the windows, the focus memory and outputs. -/
def renumbered : Workspaces :=
  { s with
    desk := { s.desk with
      windows := s.desk.windows.map fun managed : ManagedWindow =>
        { managed with workspace := shiftDown s.deletedNumber managed.workspace }
      around := { s.desk.around.showing fun _ => repoint s.deletedNumber s.fallback with
        activeWorkspace := repoint s.deletedNumber s.fallback s.desk.around.activeWorkspace } }
    workspaceNames := s.workspaceNames.eraseIdx (s.deletedNumber - 1)
    workspaceFocus := s.workspaceFocus.filterMap fun entry : (OutputId × WorkspaceId) × WindowId =>
      if entry.1.2 = s.deletedNumber then none
      else some ((entry.1.1, shiftDown s.deletedNumber entry.1.2), entry.2)
    workspaceTransitions := [] }

/-- The windows of the workspace are only asked to close. -/
def deleteFocusedWorkspace : Workspaces :=
  if s.workspaceNames.length ≤ 1 then s else s.renumbered.setFocusedWorkspace s.fallback

def moveWindows (ids : List WindowId) (workspace : WorkspaceId) (output : OutputId) : Workspaces :=
  { s with
    desk := ids.foldl (fun desk id => desk.update id fun managed =>
      { managed with workspace, output := some output }) s.desk }

/-- A window moves with its split group. -/
def movedIds (managed : ManagedWindow) (output : OutputId) : List WindowId :=
  if managed.tileRect.isSome then
    (s.desk.splitGroup output managed.workspace).map ManagedWindow.id
  else [managed.id]

def moveWindowToWorkspace (id : WindowId) (workspace : WorkspaceId) : Workspaces :=
  if !s.hasWorkspace workspace then s
  else
    match s.desk.window id with
    | none => s
    | some managed =>
      if managed.mapped = false ∨ managed.workspace = workspace then s
      else
        let output := managed.output.getD s.desk.around.focusedOutput
        s.moveWindows (s.movedIds managed output) workspace output

def workspaceForSlot (slot : ℕ) : Option WorkspaceId :=
  if slot + 1 ≤ 9 ∧ slot + 1 ≤ s.workspaceNames.length then some (slot + 1) else none

def assignSlot (slot : ℕ) : Workspaces :=
  match s.workspaceForSlot slot, s.focusedWindow with
  | some workspace, some id =>
    match s.desk.window id with
    | none => { s with focusedWindow := none }
    | some managed =>
      if managed.mapped then
        let output := managed.output.getD s.desk.around.focusedOutput
        (s.moveWindows (s.movedIds managed output) workspace output).setFocusedWorkspace workspace
      else s
  | _, _ => s

/-- The control action of that name. -/
def actionMoveWindowToWorkspace (id : WindowId) (workspace : WorkspaceId) : Workspaces :=
  if s.hasWorkspace workspace then
    { s with desk := s.desk.update id fun managed => { managed with workspace } }
  else s

/-- A dragged window is on the workspace that the output under the pointer shows. -/
def dragTo (id : WindowId) (output : OutputId) : Workspaces :=
  match getKey output s.desk.around.outputs with
  | none => s
  | some shown =>
    { s with desk := s.desk.update id fun managed =>
        { managed with output := some output, workspace := shown.activeWorkspace } }

/-- `apply_window_rule`, once the rule that matches the window is found. -/
def applyWindowRule (id : WindowId) (rule : WindowRule) : Workspaces :=
  let workspace := rule.workspace.filter fun number => decide (number ≤ s.workspaceNames.length)
  let output := rule.output.bind s.desk.around.outputByName
  { s with desk := s.desk.update id fun managed =>
      { managed with
        workspace := workspace.getD managed.workspace
        output := output.or managed.output
        floating := rule.floating.getD managed.floating } }

def startSplitAssist (source : WindowId) (output : OutputId) : Workspaces :=
  { s with
    pendingSplitAssist := some {
      source, output
      workspace := ((s.desk.window source).map ManagedWindow.workspace).getD
        s.desk.around.activeWorkspace } }

def closeWindow (id : WindowId) : Workspaces :=
  { s with
    desk := s.desk.closeWindow id
    workspaceFocus := s.workspaceFocus.filter fun entry => entry.2 ≠ id
    focusedWindow := if s.focusedWindow = some id then none else s.focusedWindow }

end Workspaces

/-- The operations on workspaces, and those on windows and outputs that go on beside them. -/
inductive WorkspaceEvent where
  | createWorkspaceFromDialog (name : String)
  | deleteFocusedWorkspace
  | setFocusedWorkspace (workspace : WorkspaceId)
  | updateInteractiveTransition (forward : Bool)
  | settleInteractiveTransition (target : Option WorkspaceId)
  | forgetTransition (output : OutputId)
  | focusWindowId (id : WindowId)
  | restack (stacking : List WindowId)
  | moveWindowToWorkspace (id : WindowId) (workspace : WorkspaceId)
  | assignSlot (slot : ℕ)
  | actionMoveWindowToWorkspace (id : WindowId) (workspace : WorkspaceId)
  | dragTo (id : WindowId) (output : OutputId)
  | applyWindowRule (id : WindowId) (rule : WindowRule)
  | startSplitAssist (source : WindowId) (output : OutputId)
  | takeSplitAssist
  | openWindow (id : WindowId) (window : ClientWindow) (isDialogLike : Bool)
  | closeWindow (id : WindowId)
  | surroundings (around : Surroundings)
  | rebuildOutputs (around : Surroundings)
  | operation (operation : Operation)

/-- The operations that bring no workspace number of their own. -/
def Operation.copies : Operation → Bool
  | .rebuildOutputs _ | .surroundings _ | .assign .. | .opened .. | .closed _ => false
  | _ => true

namespace Workspaces

/-- A number of one of `count` workspaces. -/
def Named (count number : ℕ) : Prop := 1 ≤ number ∧ number ≤ count

instance (count number : ℕ) : Decidable (Named count number) :=
  inferInstanceAs (Decidable (_ ∧ _))

/-- The outputs a backend brings show workspaces there are. -/
def accepts (s : Workspaces) (around : Surroundings) : Bool :=
  decide (Named s.workspaceNames.length around.activeWorkspace) &&
    around.outputs.all fun entry =>
      decide (Named s.workspaceNames.length entry.2.activeWorkspace)

def onDesk (s : Workspaces) (operation : Operation) : Option Workspaces :=
  (s.desk.step operation).map fun desk => { s with desk }

/-- A new window is on the focused workspace and on an output that takes windows. -/
def openWindow (s : Workspaces) (id : WindowId) (window : ClientWindow) (isDialogLike : Bool) :
    Option Workspaces :=
  (s.onDesk (.opened id window isDialogLike s.focusedWorkspace)).map fun opened =>
    { opened with desk := opened.desk.update id fun managed =>
        { managed with output := some s.desk.around.normalOutputForWindows } }

def step (s : Workspaces) : WorkspaceEvent → Option Workspaces
  | .createWorkspaceFromDialog name => some (s.createWorkspaceFromDialog name)
  | .deleteFocusedWorkspace => some s.deleteFocusedWorkspace
  | .setFocusedWorkspace workspace => some (s.setFocusedWorkspace workspace)
  | .updateInteractiveTransition forward => some (s.updateInteractiveTransition forward)
  | .settleInteractiveTransition target => some (s.settleInteractiveTransition target)
  | .forgetTransition output =>
    some { s with workspaceTransitions := removeKey output s.workspaceTransitions }
  | .focusWindowId id => some (s.focusWindowId id)
  | .restack stacking => some { s with stacking }
  | .moveWindowToWorkspace id workspace => some (s.moveWindowToWorkspace id workspace)
  | .assignSlot slot => some (s.assignSlot slot)
  | .actionMoveWindowToWorkspace id workspace => some (s.actionMoveWindowToWorkspace id workspace)
  | .dragTo id output => some (s.dragTo id output)
  | .applyWindowRule id rule => some (s.applyWindowRule id rule)
  | .startSplitAssist source output => some (s.startSplitAssist source output)
  | .takeSplitAssist => some { s with pendingSplitAssist := none }
  | .openWindow id window isDialogLike => s.openWindow id window isDialogLike
  | .closeWindow id => some (s.closeWindow id)
  | .surroundings around => if s.accepts around then s.onDesk (.surroundings around) else none
  | .rebuildOutputs around =>
    if s.accepts around then
      { s with workspaceFocus := [] }.onDesk (.rebuildOutputs around)
    else none
  | .operation operation => if operation.copies then s.onDesk operation else none

/-- A session with its first workspace, which every output shows. -/
def start (first : String) (rest : List String) (around : Surroundings) (animations : Bool) :
    Workspaces :=
  { desk := .start { around.showing fun _ _ => 1 with activeWorkspace := 1 }
    workspaceNames := first :: rest
    workspaceFocus := []
    focusedWindow := none
    pendingSplitAssist := none
    workspaceTransitions := []
    animationsEnabled := animations
    stacking := [] }

/-! Sending a window to a workspace in each of the ways there are. -/

/-- The control action of that name. -/
def actionAssignSplitGroupToWorkspace (s : Workspaces) (id : WindowId) (workspace : WorkspaceId) :
    Workspaces :=
  if s.hasWorkspace workspace && (s.desk.window id).any fun managed => managed.tileRect.isSome then
    (s.focusWindowId id).assignSlot (workspace - 1)
  else s

/-- The windows when a window is on the workspace with its split group, on one output. -/
def movedWindows (s : Workspaces) (managed : ManagedWindow) (workspace : WorkspaceId) :
    List ManagedWindow :=
  let output := managed.output.getD s.desk.around.focusedOutput
  (s.moveWindows (s.movedIds managed output) workspace output).desk.windows

/-- The shortcut, the overview and the control actions all bring the window there like this. -/
def MovesAgree (s : Workspaces) (managed : ManagedWindow) (workspace : WorkspaceId) : Prop :=
  ({ s with focusedWindow := some managed.id }.assignSlot (workspace - 1)).desk.windows =
      s.movedWindows managed workspace ∧
    (s.moveWindowToWorkspace managed.id workspace).desk.windows =
      s.movedWindows managed workspace ∧
    (s.actionMoveWindowToWorkspace managed.id workspace).desk.windows =
      s.movedWindows managed workspace ∧
    (managed.tileRect.isSome →
      (s.actionAssignSplitGroupToWorkspace managed.id workspace).desk.windows =
        s.movedWindows managed workspace)

/-- The window is there already, or it goes alone to one of the first nine workspaces. -/
def GoesAlone (s : Workspaces) (managed : ManagedWindow) (workspace : WorkspaceId) : Prop :=
  if managed.workspace = workspace then managed.tileRect.isSome ∨ managed.output.isSome
  else workspace ≤ 9 ∧ managed.output.isSome ∧
    ∀ id, id ∈ s.movedIds managed (managed.output.getD s.desk.around.focusedOutput) ↔
      id = managed.id

variable {s : Workspaces} {w v : ManagedWindow} {n : WorkspaceId} {id : WindowId} {o : OutputId}
  {ids : List WindowId}

theorem windows_moveWindows : (s.moveWindows ids n o).desk.windows = s.desk.windows.map fun v =>
    if v.id ∈ ids then { v with workspace := n, output := some o } else v := by
  rw [moveWindows]
  generalize s.desk = desk
  induction ids generalizing desk with
  | nil => simp
  | cons id ids ih =>
    rw [List.foldl_cons, ih, Desk.update, updateKey, List.map_map]
    refine List.map_congr_left fun v _ => ?_
    by_cases hv : v.id = id
    · simp [hv]
    · simp [hv]

theorem windows_focusWindowId : (s.focusWindowId id).desk = s.desk := by
  rw [focusWindowId]
  split <;> rfl

theorem windows_setFocusedWorkspace : (s.setFocusedWorkspace n).desk.windows = s.desk.windows := by
  have hf : (s.activateFocusedWorkspace n).desk.windows = s.desk.windows := by
    have hr : (s.rememberFocus s.focusedWorkspace).desk.windows = s.desk.windows := by
      rw [rememberFocus]
      split
      · rfl
      · split_ifs <;> rfl
    rw [activateFocusedWorkspace, focusTopWindowOnFocusedOutput]
    split
    · exact hr
    · rw [windows_focusWindowId]
      exact hr
  rw [setFocusedWorkspace]
  split_ifs
  · rfl
  · rfl
  · exact hf
  · exact hf

theorem windows_assignSlot (hw : s.desk.window w.id = some w) (hm : w.mapped)
    (hf : s.focusedWindow = some w.id) (hn : s.hasWorkspace n) :
    (s.assignSlot (n - 1)).desk.windows =
      if n ≤ 9 then s.movedWindows w n else s.desk.windows := by
  obtain ⟨h0, hle⟩ := of_decide_eq_true hn
  have hs : n - 1 + 1 = n := Nat.sub_add_cancel (Nat.pos_of_ne_zero h0)
  rw [assignSlot, workspaceForSlot, hs, hf]
  by_cases h9 : n ≤ 9
  · rw [if_pos ⟨h9, hle⟩, if_pos h9]
    dsimp only
    rw [hw]
    dsimp only
    rw [if_pos hm, windows_setFocusedWorkspace]
    rfl
  · rw [if_neg fun h => h9 h.1, if_neg h9]

theorem exists_of_mem_movedIds (hi : id ∈ s.movedIds w o) : id = w.id ∧ w.tileRect = none ∨
    w.tileRect.isSome ∧ ∃ v ∈ s.desk.windows, v.id = id ∧ v.workspace = w.workspace ∧
      v.output = some o := by
  rw [movedIds] at hi
  split_ifs at hi with ht
  · obtain ⟨v, hv, rfl⟩ := mem_map.mp hi
    obtain ⟨hv, hp⟩ := mem_filter.mp hv
    simp only [Bool.and_eq_true, beq_iff_eq] at hp
    exact .inr ⟨ht, v, hv, rfl, hp.1.2, hp.1.1.2⟩
  · exact .inl ⟨mem_singleton.mp hi, not_isSome_iff_eq_none.mp ht⟩

theorem eq_moved (hs : v.workspace = n) (ho : v.output = some o) :
    { v with workspace := n, output := some o } = v := by
  cases v
  cases hs
  cases ho
  rfl

def splitPane (id : WindowId) : ManagedWindow :=
  { ManagedWindow.new id ⟨none, none, ⟨800, 600⟩, ⟨800, 600⟩, ⟨0, 0⟩, none⟩ false 1 with
    mapped := true
    output := some 1
    tileRect := some ⟨⟨0, 0⟩, ⟨800, 600⟩⟩ }

/-- A split group of two windows. -/
def splitPair : Workspaces :=
  let s := start "Mail" ["Web"] ⟨[], 1, 1, 1, none, true⟩ false
  { s with desk := { s.desk with windows := [splitPane 1, splitPane 2] } }

end Workspaces

end FocalDesk.Window
