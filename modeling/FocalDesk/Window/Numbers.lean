import FocalDesk.Window.Operation

/-! The workspace numbers a desktop holds: the operations on windows only copy them. -/
namespace FocalDesk.Window
open Library List

namespace ManagedWindow

variable {win : ManagedWindow} {default tgt : Rect} {out : OutputId} {work ownWork : Option Rect}

@[simp] theorem restoreSplit_workspace :
    (win.restoreSplit default).workspace = win.workspace := by
  unfold ManagedWindow.restoreSplit
  cases win.tileRect <;> rfl

@[simp] theorem leaveSplit_workspace :
    (win.leaveSplit default).workspace = win.workspace := by
  unfold ManagedWindow.leaveSplit
  split_ifs
  · exact restoreSplit_workspace
  · rfl
  · rfl

@[simp] theorem clampFloatingToWork_workspace {work : Rect} :
    (win.clampFloatingToWork default out work).workspace = win.workspace :=
  restoreSplit_workspace

@[simp] theorem unmaximize_workspace : (win.unmaximize work).workspace = win.workspace := by
  unfold ManagedWindow.unmaximize
  cases win.suspendedPane work <;> rfl

@[simp] theorem setMaximized_workspace {maximized : Bool} :
    (win.setMaximized work ownWork maximized).workspace = win.workspace := by
  unfold ManagedWindow.setMaximized
  split_ifs
  · rfl
  · unfold ManagedWindow.maximize
    cases win.tileRect <;> cases work <;> rfl
  · exact unmaximize_workspace

@[simp] theorem enterFullscreen_workspace {area : Option Rect} :
    (win.enterFullscreen default area out).workspace = win.workspace := by
  unfold ManagedWindow.enterFullscreen ManagedWindow.fillOutput
  dsimp only
  split_ifs
  · exact restoreSplit_workspace
  · cases area <;> exact restoreSplit_workspace

@[simp] theorem leaveFullscreen_workspace :
    win.leaveFullscreen.workspace = win.workspace := by
  unfold ManagedWindow.leaveFullscreen
  split_ifs <;> rfl

theorem enterPane_workspace :
    (win.enterPane default out tgt).1.workspace = win.workspace := by
  unfold ManagedWindow.enterPane
  by_cases hs : win.tileRect = some tgt
  · rw [if_pos hs]
    exact restoreSplit_workspace
  · rw [if_neg hs]
    split_ifs <;> rfl

@[simp] theorem placeInSplitRect_workspace :
    (win.placeInSplitRect ownWork default out tgt).1.workspace = win.workspace := by
  unfold ManagedWindow.placeInSplitRect
  split_ifs
  · rfl
  · exact (enterPane_workspace).trans unmaximize_workspace
  · exact enterPane_workspace

@[simp] theorem undoWindow_workspace {saved : SplitUndoWindow} :
    (Desk.undoWindow saved win).workspace = saved.workspace := by
  unfold Desk.undoWindow
  dsimp only
  split <;> rfl

end ManagedWindow

/-- What every output shows, and the workspace that stands in for an output's. -/
structure Surroundings.Numbers (P : WorkspaceId → Prop) (around : Surroundings) : Prop where
  outputs : ∀ entry ∈ around.outputs, P entry.2.activeWorkspace
  active : P around.activeWorkspace

namespace Desk

/-- Every workspace number of the desktop has a property. -/
structure Numbers (P : WorkspaceId → Prop) (desk : Desk) : Prop where
  windows : ∀ managed ∈ desk.windows, P managed.workspace
  undo : ∀ saved ∈ desk.splitUndo.getD [], P saved.workspace
  displaced : ∀ entry ∈ desk.displacedSplitWindows, P entry.2.workspace
  around : desk.around.Numbers P

variable {P : WorkspaceId → Prop} {desk next : Desk} {id : WindowId}
  {f : ManagedWindow → ManagedWindow}

theorem Surroundings_active {around : Surroundings} (h : around.Numbers P) (output : OutputId)
    {workspace : WorkspaceId} (hws : P workspace) :
    P (((getKey output around.outputs).map DeskOutput.activeWorkspace).getD workspace) := by
  cases hg : getKey output around.outputs with
  | none => exact hws
  | some shown => exact h.outputs _ (mem_of_getKey hg)

namespace Numbers

section

variable (h : desk.Numbers P)
include h

theorem update (hf : ∀ managed ∈ desk.windows, (f managed).workspace = managed.workspace) :
    (desk.update id f).Numbers P := by
  refine ⟨forall_mem_updateKey h.windows fun managed hm _ => ?_, h.undo, h.displaced, h.around⟩
  rw [hf managed hm]
  exact h.windows managed hm

theorem assigned {workspace : WorkspaceId} (hws : P workspace)
    (hf : ∀ managed, (f managed).workspace = workspace) : (desk.update id f).Numbers P := by
  refine ⟨forall_mem_updateKey h.windows fun managed _ _ => ?_, h.undo, h.displaced, h.around⟩
  rw [hf managed]
  exact hws

theorem map (hf : ∀ managed ∈ desk.windows, P (f managed).workspace) :
    ({ desk with windows := desk.windows.map f } : Desk).Numbers P :=
  ⟨forall_mem_map.mpr hf, h.undo, h.displaced, h.around⟩

theorem forgetDisplaced (id : WindowId) : (desk.forgetDisplaced id).Numbers P :=
  ⟨h.windows, h.undo, fun e he => h.displaced e (mem_filter.mp he).1, h.around⟩

theorem displace {displaced : DisplacedSplitWindow} (hws : P displaced.workspace) :
    (desk.displace id displaced).Numbers P := by
  refine ⟨h.windows, h.undo, fun e he => ?_, h.around⟩
  rcases mem_of_mem_putKey he with rfl | hold
  · exact hws
  · exact h.displaced e hold

theorem window {managed : ManagedWindow} (hw : desk.window id = some managed) :
    P managed.workspace := h.windows managed (mem_of_window hw).1

theorem recordSplitUndo (ids : List WindowId) : (desk.recordSplitUndo ids).Numbers P := by
  unfold Desk.recordSplitUndo
  dsimp only
  split_ifs
  · exact h
  · refine ⟨h.windows, fun saved hs => ?_, h.displaced, h.around⟩
    obtain ⟨id, -, hr⟩ := mem_filterMap.mp hs
    obtain ⟨managed, hw, rfl⟩ := Option.map_eq_some_iff.mp hr
    exact h.window hw

theorem configureSplitMember (id : WindowId) (target : Rect) :
    (desk.configureSplitMember id target).Numbers P := h.update fun _ _ => rfl

theorem restoreSplitWindow (id : WindowId) : (desk.restoreSplitWindow id).Numbers P :=
  h.update fun _ _ => ManagedWindow.restoreSplit_workspace

theorem clampFloatingWindowToWork (id : WindowId) (output : OutputId) (work : Rect) :
    (desk.clampFloatingWindowToWork id output work).Numbers P :=
  h.update fun _ _ => ManagedWindow.clampFloatingToWork_workspace

theorem swapPanes (fst snd : WindowId) (a b : Rect) :
    (desk.swapPanes fst snd a b).Numbers P :=
  ((h.recordSplitUndo _).configureSplitMember _ _).configureSplitMember _ _

theorem resizeMember (work : Rect) (resize : Rect → Rect) (id : WindowId) :
    (desk.resizeMember work resize id).Numbers P := by
  unfold Desk.resizeMember
  split
  next => exact h
  next =>
    split_ifs
    · exact h.configureSplitMember _ _
    · exact h

theorem rememberDisplacedSplit (id : WindowId) (output : OutputId) (placement : SavedSplitPlacement)
    :
    (desk.rememberDisplacedSplit id output placement).Numbers P := by
  unfold Desk.rememberDisplacedSplit
  split
  next hw => exact h.displace (h.window hw)
  next => exact h

theorem restoreLive {output : OutputId} {placement : SavedSplitPlacement}
    (hp : desk.restoreLiveSplitPlacement id output placement = some next) :
    next.Numbers P := by
  obtain ⟨target, -, rfl⟩ := Option.map_eq_some_iff.mp hp
  exact h.update fun _ _ => rfl

theorem reflowSplitWindow (output : OutputId) (work : Rect) (e : WindowId × SavedSplitPlacement)
    :
    (desk.reflowSplitWindow output work e).Numbers P := by
  unfold Desk.reflowSplitWindow
  split
  next hp => exact (h.restoreLive hp).forgetDisplaced e.1
  next => exact (h.rememberDisplacedSplit _ _ _).clampFloatingWindowToWork _ _ _

theorem reflowOutput (e : OutputId × Rect) : (desk.reflowOutput e).Numbers P := by
  have hr : (desk.reflowSplitWindowsForOutput e.1 e.2).Numbers P := by
    unfold Desk.reflowSplitWindowsForOutput
    dsimp only
    split
    next => exact h
    next work _ =>
      exact foldl_invariant (Numbers P) (fun _ => True)
        (fun _ e' hd _ => hd.reflowSplitWindow _ work e') h fun _ _ => trivial
  unfold Desk.reflowOutput Desk.reflowConstrainedWindowsForOutput
  split
  next => exact hr
  next =>
    refine hr.map fun managed hm => ?_
    split_ifs <;> exact hr.windows managed hm

/-- A displaced window goes back to the workspace it was displaced from. -/
theorem restoreDisplaced {e : WindowId × OutputId × DisplacedSplitWindow}
    (he : P e.2.2.workspace) : (desk.restoreDisplaced e).Numbers P := by
  unfold Desk.restoreDisplaced
  split
  next => exact h
  next hp =>
    exact ((h.restoreLive hp).assigned he fun _ => rfl).forgetDisplaced e.1

theorem restoreDisplacedSplitWindows : desk.restoreDisplacedSplitWindows.Numbers P := by
  refine foldl_invariant (Numbers P) (fun e => P e.2.2.workspace)
    (fun _ _ hd he => hd.restoreDisplaced he) h fun e he => ?_
  exact h.displaced (e.1, e.2.2) (mem_displacedCandidates.mp he).1

/-- The undo writes back recorded workspaces. -/
theorem undoLastSplitAction : desk.undoLastSplitAction.Numbers P := by
  unfold Desk.undoLastSplitAction
  split
  next => exact h
  next saved hu =>
    have hst : ({ desk with splitUndo := none } : Desk).Numbers P :=
      ⟨h.windows, by rintro saved ⟨⟩, h.displaced, h.around⟩
    have hs := h.undo
    rw [hu] at hs
    exact foldl_invariant (Numbers P) (fun saved : SplitUndoWindow => P saved.workspace)
      (fun _ _ hd hws => hd.assigned hws fun _ =>
        ManagedWindow.undoWindow_workspace) hst hs

theorem rehomeOne (focused : OutputId) (work : Option Rect) (e : Rehome) :
    (desk.rehomeOne focused work e).Numbers P := by
  cases e with
  | split id output placement =>
    show (desk.rehomeSplit id output placement).Numbers P
    unfold Desk.rehomeSplit
    split
    next hp => exact (h.restoreLive hp).forgetDisplaced id
    next =>
      have hm := h.rememberDisplacedSplit id output placement
      dsimp only
      split
      next => exact hm
      next => exact hm.clampFloatingWindowToWork _ _ _
  | home id fullscreen maximized =>
    show (desk.rehomeMode focused work id fullscreen maximized).Numbers P
    have hd := h.restoreSplitWindow id
    unfold Desk.rehomeMode
    dsimp only
    split_ifs
    · refine Numbers.update (hd.update (by exact fun _ _ => rfl)) fun managed _ => ?_
      rw [if_pos rfl]
      exact ManagedWindow.enterFullscreen_workspace
    · exact Numbers.update (hd.update (by exact fun _ _ => rfl))
        fun _ _ => ManagedWindow.setMaximized_workspace
    · split
      next => exact hd
      next => exact hd.clampFloatingWindowToWork _ _ _

theorem rehomeWindow (focused : OutputId) {workspace : WorkspaceId} (hws : P workspace)
    {saved : OutputWindowSnapshot} (hs : P saved.workspace) :
    (desk.rehomeWindow focused workspace saved).1.Numbers P := by
  unfold Desk.rehomeWindow
  cases desk.window saved.id with
  | none => exact h
  | some managed =>
    dsimp only
    cases desk.rehomeTarget saved managed with
    | some target =>
      dsimp only
      cases saved.split with
      | some split => exact h.assigned hs (by exact fun _ => rfl)
      | none => exact h.update (by exact fun _ _ => rfl)
    | none =>
      dsimp only
      have hm : (desk.update saved.id fun managed =>
          { managed with output := some focused, workspace }).Numbers P :=
        h.assigned hws fun _ => rfl
      cases saved.outputName with
      | none => exact hm
      | some con =>
        cases saved.split with
        | none => exact hm
        | some placement => exact hm.displace hs

end

theorem rehomeWindows (h : desk.Numbers P) (focused : OutputId) {workspace : WorkspaceId}
    (hws : P workspace) {snapshots : List OutputWindowSnapshot}
    (hs : ∀ saved ∈ snapshots, P saved.workspace) :
    (Desk.rehomeWindows focused workspace desk snapshots).1.Numbers P := by
  induction snapshots generalizing desk with
  | nil => exact h
  | cons saved snapshots ih =>
    obtain ⟨hsa, hr⟩ := forall_mem_cons.mp hs
    exact ih (h.rehomeWindow focused hws hsa) hr

theorem restoreOutputTopology (h : desk.Numbers P) {snap : OutputTopologySnapshot}
    (ho : ∀ e ∈ snap.outputWorkspaces, P e.2)
    (hw : ∀ saved ∈ snap.windows, P saved.workspace) :
    (desk.restoreOutputTopology snap).Numbers P := by
  have hr : (desk.restoreOutputWorkspaces snap.outputWorkspaces).Numbers P := by
    refine ⟨h.windows, h.undo, h.displaced, forall_mem_map.mpr fun e he => ?_, h.around.active⟩
    dsimp only
    cases hl : snap.outputWorkspaces.lookup e.2.name with
    | none => exact h.around.outputs e he
    | some workspace => exact ho _ (mem_of_lookup hl)
  unfold Desk.restoreOutputTopology
  dsimp only
  split
  next primary focused _ _ =>
    have hws := Surroundings_active hr.around focused hr.around.active
    have hs : ({ desk.restoreOutputWorkspaces snap.outputWorkspaces with
        around := { (desk.restoreOutputWorkspaces snap.outputWorkspaces).around with
          primaryOutput := primary
          focusedOutput := focused
          activeWorkspace := ((getKey focused
            (desk.restoreOutputWorkspaces snap.outputWorkspaces).around.outputs).map
              DeskOutput.activeWorkspace).getD
            (desk.restoreOutputWorkspaces snap.outputWorkspaces).around.activeWorkspace } } :
        Desk).Numbers P :=
      ⟨hr.windows, hr.undo, hr.displaced, hr.around.outputs, hws⟩
    refine restoreDisplacedSplitWindows ?_
    exact foldl_invariant (Numbers P) (fun _ => True)
      (fun _ e hd _ => hd.rehomeOne _ _ e)
      (hs.rehomeWindows focused hws hw) fun _ _ => trivial
  next => exact hr

theorem rebuildOutputs (h : desk.Numbers P) {around : Surroundings} (ha : around.Numbers P) :
    (desk.rebuildOutputs around).Numbers P := by
  have hr : ({ desk with around } : Desk).Numbers P := ⟨h.windows, h.undo, h.displaced, ha⟩
  refine hr.restoreOutputTopology ?_ ?_
  · exact forall_mem_map.mpr fun e he => h.around.outputs e he
  · exact forall_mem_map.mpr fun managed hm => h.windows managed hm

theorem reserveOutputs (h : desk.Numbers P) (reserved : List OutputId) :
    (desk.reserveOutputs reserved).Numbers P := by
  have ha : (desk.around.reserve reserved).Numbers P := by
    refine ⟨forall_mem_map.mpr fun e he => ?_, h.around.active⟩
    split_ifs <;> exact h.around.outputs e he
  have hf := Surroundings_active ha
    (desk.around.reserve reserved).normalOutputForWindows
    (Surroundings_active ha (desk.around.reserve reserved).focusedOutput ha.active)
  have hr : ({ desk with around := desk.around.reserve reserved } : Desk).Numbers P :=
    ⟨h.windows, h.undo, h.displaced, ha⟩
  refine hr.map fun managed hm => ?_
  split_ifs
  · exact hf
  · exact h.windows managed hm

end Numbers

/-- The numbers an operation brings along itself. -/
def Brings (P : WorkspaceId → Prop) : Operation → Prop
  | .rebuildOutputs around => around.Numbers P
  | .surroundings around => around.Numbers P
  | .assign _ workspace _ => P workspace
  | .opened _ _ _ workspace => P workspace
  | _ => True

theorem Numbers.step {op : Operation} (h : desk.Numbers P) (hs : desk.step op = some next)
    (hb : Brings P op) : next.Numbers P := by
  cases op with
  | setWindowMaximized id maximized =>
    cases hs
    exact h.update fun _ _ => ManagedWindow.setMaximized_workspace
  | setWindowFullscreen id fullscreen req =>
    cases hs
    refine h.update fun managed _ => ?_
    split_ifs
    · exact ManagedWindow.enterFullscreen_workspace
    · exact ManagedWindow.leaveFullscreen_workspace
  | placeWindowInSplitRect id output target =>
    cases hs
    unfold Desk.placeWindowInSplitRect
    split_ifs
    · exact h
    · exact (h.forgetDisplaced id).update fun _ _ => ManagedWindow.placeInSplitRect_workspace
  | restoreSplitWindow id =>
    cases hs
    exact h.restoreSplitWindow id
  | restoreAllSplitWindows =>
    cases hs
    refine h.map fun managed hme => ?_
    rw [ManagedWindow.leaveSplit_workspace]
    exact h.windows managed hme
  | exitFocusedSplitGroup focused =>
    cases hs
    unfold Desk.exitFocusedSplitGroup
    split
    next => exact h
    next =>
      split
      next =>
        exact foldl_invariant (Numbers P) (fun _ => True)
          (fun _ id hd _ => hd.restoreSplitWindow id) (h.recordSplitUndo _)
          fun _ _ => trivial
      next => exact h
  | swapSplitPair fst snd =>
    cases hs
    unfold Desk.swapSplitPair
    split
    next => exact h.swapPanes _ _ _ _
    next => exact h
  | swapFocusedSplitNeighbor focused req =>
    cases hs
    unfold Desk.swapFocusedSplitNeighbor
    split_ifs
    · cases hsw : desk.neighborSwap focused req with
      | none => exact h
      | some swapped =>
        simp only [neighborSwap, bind, Option.bind_eq_some_iff] at hsw
        obtain ⟨managed, -, rect, -, neighbor, -, work, -, -, -, -, -, hdo⟩ := hsw
        cases hdo
        exact h.swapPanes _ _ _ _
    · exact h
  | resizeSplitPair pair pos =>
    cases hs
    unfold Desk.resizeSplitPair
    split
    next =>
      dsimp only
      split
      next => exact (h.configureSplitMember _ _).configureSplitMember _ _
      next => exact h
    next => exact h
  | resizeSplitGridDivider divider req =>
    cases hs
    unfold Desk.resizeSplitGridDivider
    have hm : ∀ (ids : List WindowId) (resize : Rect → Rect) {desk : Desk}, desk.Numbers P →
        (ids.foldl (fun desk id => desk.resizeMember divider.work resize id) desk).Numbers P :=
      fun ids resize _ hd => foldl_invariant (Numbers P) (fun _ => True)
        (fun _ id hd _ => hd.resizeMember _ _ id) hd fun _ _ => trivial
    split_ifs
    · exact h
    · exact h
    · exact hm _ _ (hm _ _ h)
  | recordSplitUndo ids =>
    cases hs
    exact h.recordSplitUndo ids
  | undoLastSplitAction =>
    cases hs
    exact h.undoLastSplitAction
  | reflowOutput output oldWork =>
    cases hs
    exact h.reflowOutput (output, oldWork)
  | reconcileSplitWorkAreas =>
    cases hs
    have hst : ({ desk with splitWorkAreas := desk.currentWorkAreas } : Desk).Numbers P :=
      ⟨h.windows, h.undo, h.displaced, h.around⟩
    refine restoreDisplacedSplitWindows ?_
    exact foldl_invariant (Numbers P) (fun _ => True)
      (fun _ e hd _ => hd.reflowOutput e) hst fun _ _ => trivial
  | rebuildOutputs around =>
    cases hs
    exact h.rebuildOutputs hb
  | reserveOutputs reserved =>
    cases hs
    exact h.reserveOutputs reserved
  | surroundings around =>
    cases hs
    exact ⟨h.windows, h.undo, h.displaced, hb⟩
  | commit id win =>
    cases hs
    exact h.update fun _ _ => rfl
  | display id mapped minimized =>
    cases hs
    exact h.update fun _ _ => rfl
  | assign id workspace output =>
    cases hs
    exact h.assigned hb fun _ => rfl
  | forgetDisplaced id =>
    cases hs
    exact h.forgetDisplaced id
  | opened id win isDialogLike workspace =>
    simp only [Desk.step] at hs
    split_ifs at hs
    cases hs
    refine ⟨fun managed hme => ?_, h.undo, h.displaced, h.around⟩
    rcases mem_append.mp hme with hold | hn
    · exact h.windows managed hold
    · rw [mem_singleton.mp hn]
      exact hb
  | closed id =>
    cases hs
    refine ⟨fun managed hme => ?_, h.undo, fun e he => ?_, h.around⟩
    · exact h.windows managed (mem_filter.mp hme).1
    · exact h.displaced e (mem_filter.mp he).1

end Desk

end FocalDesk.Window
