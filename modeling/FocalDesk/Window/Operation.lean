import FocalDesk.Window.Exclusion

/-! Runs of the operations on windows, and the modes the windows are in after them. -/
namespace FocalDesk.Window
open Library List

/-- The operations on modes, panes and outputs, and what changes around them: the outputs and the
pointer, the clients, and windows that open, close, hide or move to another workspace. -/
inductive Operation where
  | setWindowMaximized (id : WindowId) (maximized : Bool)
  | setWindowFullscreen (id : WindowId) (fullscreen : Bool) (requested : Option OutputId)
  | placeWindowInSplitRect (id : WindowId) (output : OutputId) (target : Rect)
  | restoreSplitWindow (id : WindowId)
  | restoreAllSplitWindows
  | exitFocusedSplitGroup (focused : WindowId)
  | swapSplitPair (first second : WindowId)
  | swapFocusedSplitNeighbor (focused : WindowId) (requested : SplitDirection)
  | resizeSplitPair (pair : SplitPair) (position : ℤ)
  | resizeSplitGridDivider (divider : SplitGridDivider) (requested : ℤ)
  | recordSplitUndo (ids : List WindowId)
  | undoLastSplitAction
  | reflowOutput (output : OutputId) (oldWork : Rect)
  | reconcileSplitWorkAreas
  | rebuildOutputs (around : Surroundings)
  | reserveOutputs (reserved : List OutputId)
  | surroundings (around : Surroundings)
  | commit (id : WindowId) (window : ClientWindow)
  | display (id : WindowId) (mapped minimized : Bool)
  | assign (id : WindowId) (workspace : WorkspaceId) (output : Option OutputId)
  | forgetDisplaced (id : WindowId)
  | opened (id : WindowId) (window : ClientWindow) (isDialogLike : Bool) (workspace : WorkspaceId)
  | closed (id : WindowId)
deriving DecidableEq, Repr

/-- `ManagedWindow::new_wayland`. -/
def ManagedWindow.new (id : WindowId) (window : ClientWindow) (isDialogLike : Bool)
    (workspace : WorkspaceId) : ManagedWindow :=
  { id, window, isDialogLike, workspace
    mapped := false
    minimized := false
    floating := false
    maximized := false
    fullscreen := false
    output := none
    tileRect := none
    splitRestoreRect := none
    suspendedTileRect := none
    floatRect := none
    restoreRect := none }

namespace Desk

def start (around : Surroundings) : Desk :=
  { around
    windows := []
    splitUndo := none
    displacedSplitWindows := []
    splitWorkAreas := [] }

variable (desk : Desk)

/-- The DRM device is torn down and rebuilt, with the outputs it has then. -/
def rebuildOutputs (around : Surroundings) : Desk :=
  { desk with around }.restoreOutputTopology desk.snapshotOutputTopology

def closeWindow (id : WindowId) : Desk :=
  { desk with
    windows := desk.windows.filter fun managed => managed.id ≠ id
    displacedSplitWindows := removeKey id desk.displacedSplitWindows }

/-- Window ids are not used again. -/
def step : Operation → Option Desk
  | .setWindowMaximized id maximized => some (desk.setWindowMaximized id maximized)
  | .setWindowFullscreen id fullscreen requested =>
    some (desk.setWindowFullscreen id fullscreen requested)
  | .placeWindowInSplitRect id output target => some (desk.placeWindowInSplitRect id output target)
  | .restoreSplitWindow id => some (desk.restoreSplitWindow id)
  | .restoreAllSplitWindows => some desk.restoreAllSplitWindows
  | .exitFocusedSplitGroup focused => some (desk.exitFocusedSplitGroup focused)
  | .swapSplitPair first second => some (desk.swapSplitPair first second)
  | .swapFocusedSplitNeighbor focused requested =>
    some (desk.swapFocusedSplitNeighbor focused requested)
  | .resizeSplitPair pair position => some (desk.resizeSplitPair pair position)
  | .resizeSplitGridDivider divider requested =>
    some (desk.resizeSplitGridDivider divider requested)
  | .recordSplitUndo ids => some (desk.recordSplitUndo ids)
  | .undoLastSplitAction => some desk.undoLastSplitAction
  | .reflowOutput output oldWork => some (desk.reflowOutput (output, oldWork))
  | .reconcileSplitWorkAreas => some desk.reconcileSplitWorkAreas
  | .rebuildOutputs around => some (desk.rebuildOutputs around)
  | .reserveOutputs reserved => some (desk.reserveOutputs reserved)
  | .surroundings around => some { desk with around }
  | .commit id window => some (desk.update id fun managed => { managed with window })
  | .display id mapped minimized =>
    some (desk.update id fun managed => { managed with mapped, minimized })
  | .assign id workspace output =>
    some (desk.update id fun managed => { managed with workspace, output })
  | .forgetDisplaced id => some (desk.forgetDisplaced id)
  | .opened id window isDialogLike workspace =>
    if id ∈ desk.windows.map ManagedWindow.id then none
    else some { desk with
      windows := desk.windows ++ [ManagedWindow.new id window isDialogLike workspace] }
  | .closed id => some (desk.closeWindow id)

end Desk

/-- A fullscreen window is not maximized, a maximized one has an output to fill, the undo and the
displaced windows fit the modes their windows have by then, and no window that a control panel
gives up is maximized over a pane. -/
def KeepsApart (desk : Desk) : Operation → Prop
  | .setWindowMaximized id maximized => maximized = true → ∀ managed ∈ desk.windows,
      managed.id = id → managed.fullscreen = false
  | .setWindowFullscreen id fullscreen requested => fullscreen = true →
      ∀ managed ∈ desk.windows, managed.id = id → managed.maximized = true →
        (desk.around.fullscreenRect (desk.around.fullscreenOutput managed requested)).isSome = true
  | .undoLastSplitAction => ∀ saved ∈ desk.splitUndo.getD [], ∀ managed ∈ desk.windows,
      managed.id = saved.id → ManagedWindow.FitsUndo saved managed
  | .reconcileSplitWorkAreas => desk.DisplacedUncovered
  | .rebuildOutputs around => { desk with around }.DisplacedUncovered
  | .reserveOutputs reserved => ∀ managed ∈ desk.windows, managed.isOn reserved = true →
      managed.suspendedTileRect = none
  | _ => True

instance (desk : Desk) (operation : Operation) : Decidable (KeepsApart desk operation) := by
  cases operation <;> unfold KeepsApart <;> infer_instance

namespace Desk

variable {desk next : Desk} {op : Operation} {id : WindowId}

theorem Orderly.map {f : ManagedWindow → ManagedWindow} (h : desk.Orderly)
    (hid : ∀ win, (f win).id = win.id) (hf : ∀ win ∈ desk.windows, (f win).Exclusive)
    (hw : next.windows = desk.windows.map f) : next.Orderly := by
  constructor
  · have hi : (desk.windows.map f).map ManagedWindow.id = desk.windows.map ManagedWindow.id := by
      rw [map_map]
      exact map_congr_left fun win _ => hid win
    rw [hw, hi]
    exact h.nodup
  · rw [hw]
    exact forall_mem_map.mpr hf

theorem fitsUndo_of_mode {saved : SplitUndoWindow} {win other : ManagedWindow}
    (hm : other.mode = win.mode) (h : ManagedWindow.FitsUndo saved win) :
    ManagedWindow.FitsUndo saved other := by
  have hma : other.maximized = win.maximized := congrArg WindowMode.maximized hm
  have hf : other.fullscreen = win.fullscreen := congrArg WindowMode.fullscreen hm
  rw [ManagedWindow.FitsUndo, ManagedWindow.Uncovered, hma, hf]
  exact h

theorem Orderly.undoLastSplitAction (h : desk.Orderly)
    (hf : ∀ saved ∈ desk.splitUndo.getD [], ∀ win ∈ desk.windows, win.id = saved.id →
      ManagedWindow.FitsUndo saved win) : desk.undoLastSplitAction.Orderly := by
  unfold Desk.undoLastSplitAction
  split
  next => exact h
  next saved hu =>
    rw [hu] at hf
    have hst : ({ desk with splitUndo := none } : Desk).Orderly ∧
        SameModes desk { desk with splitUndo := none } := ⟨⟨h.nodup, h.exclusive⟩, rfl, rfl, rfl⟩
    refine (foldl_invariant (fun next : Desk => next.Orderly ∧ SameModes desk next)
      (fun saved => ∀ win ∈ desk.windows, win.id = saved.id →
        ManagedWindow.FitsUndo saved win) (fun next saved hn hsa => ?_) hst hf).1
    obtain ⟨hn, hs⟩ := hn
    refine ⟨hn.update (fun _ _ _ => ManagedWindow.id_eq_of_mode ManagedWindow.undoWindow_mode)
      fun win hme hid he => he.undoWindow ?_,
      hs.trans (sameModes_update next saved.id fun _ _ _ => ManagedWindow.undoWindow_mode)⟩
    have hm : win.mode ∈ desk.modes := by
      rw [← hs.modes]
      exact mem_map_of_mem hme
    obtain ⟨pre, hp, heq⟩ := mem_map.mp hm
    refine fitsUndo_of_mode heq.symm (hsa pre hp ?_)
    exact (ManagedWindow.id_eq_of_mode heq).trans hid

/-- The panes of a snapshot were panes of windows that covered nothing. -/
theorem Orderly.uncovered_of_snapshot (h : desk.Orderly) :
    ∀ saved ∈ desk.snapshotOutputTopology.windows, saved.split.isSome →
      desk.Uncovered saved.id := by
  intro saved hs hsp
  obtain ⟨win, hm, rfl⟩ := mem_map.mp hs
  refine h.uncovered_of_tile hm ?_
  obtain ⟨placement, hp⟩ := Option.isSome_iff_exists.mp hsp
  obtain ⟨work, -, hpa⟩ := Option.bind_eq_some_iff.mp hp
  obtain ⟨tile, ht, -⟩ := Option.bind_eq_some_iff.mp hpa
  simp [ht]

theorem Orderly.reserveOutputs (h : desk.Orderly) {reserved : List OutputId}
    (hp : ∀ win ∈ desk.windows, win.isOn reserved →
      win.suspendedTileRect = none) : (desk.reserveOutputs reserved).Orderly := by
  refine h.map (fun win => ?_) (fun win hm => ?_) rfl
  · split_ifs <;> rfl
  · split_ifs with hon
    · exact .of_uncovered ⟨rfl, rfl⟩ (hp win hm hon)
    · exact h.exclusive win hm

theorem Orderly.closeWindow (h : desk.Orderly) (id : WindowId) : (desk.closeWindow id).Orderly :=
  ⟨h.nodup.sublist (filter_sublist.map _), fun win hm => h.exclusive win (mem_filter.mp hm).1⟩

theorem new_exclusive (id : WindowId) (win : ClientWindow) (isDialogLike : Bool) (ws : WorkspaceId)
    : (ManagedWindow.new id win isDialogLike ws).Exclusive :=
  .of_uncovered ⟨rfl, rfl⟩ rfl

/-- Every operation that keeps the modes apart leaves each window in one mode at most. -/
theorem Orderly.step (h : desk.Orderly) (hs : desk.step op = some next) (hap : KeepsApart desk op)
    : next.Orderly := by
  cases op with
  | setWindowMaximized id maximized =>
    cases hs
    exact h.update (fun _ _ _ => ManagedWindow.setMaximized_id) fun win hm hid he =>
      he.setMaximized fun hma => hap hma win hm hid
  | setWindowFullscreen id fullscreen req =>
    cases hs
    refine h.update (fun win _ _ => ?_) fun win hm hid he => ?_
    · split_ifs
      · exact ManagedWindow.enterFullscreen_id
      · exact ManagedWindow.leaveFullscreen_id
    · split_ifs with hfu
      · exact he.enterFullscreen fun hma => hap hfu win hm hid hma
      · exact he.leaveFullscreen
  | placeWindowInSplitRect id out tgt =>
    cases hs
    unfold Desk.placeWindowInSplitRect
    split_ifs
    · exact h
    · have hd : ({ desk with
          displacedSplitWindows := removeKey id desk.displacedSplitWindows } : Desk).Orderly :=
        ⟨h.nodup, h.exclusive⟩
      exact hd.update (fun _ _ _ => ManagedWindow.placeInSplitRect_id)
        fun _ _ _ he => he.placeInSplitRect
  | restoreSplitWindow id =>
    cases hs
    exact h.restoreSplitWindow id
  | restoreAllSplitWindows =>
    cases hs
    exact h.map (fun win => ManagedWindow.id_eq_of_mode ManagedWindow.leaveSplit_mode)
      (fun win hm => (h.exclusive win hm).leaveSplit) rfl
  | exitFocusedSplitGroup focused =>
    cases hs
    exact h.exitFocusedSplitGroup focused
  | swapSplitPair fst snd =>
    cases hs
    exact h.swapSplitPair fst snd
  | swapFocusedSplitNeighbor focused req =>
    cases hs
    exact h.swapFocusedSplitNeighbor focused req
  | resizeSplitPair pair pos =>
    cases hs
    exact h.resizeSplitPair pair pos
  | resizeSplitGridDivider divider req =>
    cases hs
    exact h.resizeSplitGridDivider divider req
  | recordSplitUndo ids =>
    cases hs
    exact h.recordSplitUndo ids
  | undoLastSplitAction =>
    cases hs
    exact h.undoLastSplitAction hap
  | reflowOutput out oldWork =>
    cases hs
    exact ((Reflowing.refl h).reflowOutput (out, oldWork)).orderly
  | reconcileSplitWorkAreas =>
    cases hs
    exact h.reconcileSplitWorkAreas hap
  | rebuildOutputs around =>
    cases hs
    have hr : ({ desk with around } : Desk).Orderly := ⟨h.nodup, h.exclusive⟩
    exact hr.restoreOutputTopology hap h.uncovered_of_snapshot
  | reserveOutputs reserved =>
    cases hs
    exact h.reserveOutputs hap
  | surroundings around =>
    cases hs
    exact ⟨h.nodup, h.exclusive⟩
  | commit id window =>
    cases hs
    exact h.update (fun _ _ _ => rfl) fun _ _ _ he => ⟨he.one, he.suspended⟩
  | display id mapped minimized =>
    cases hs
    exact h.update (fun _ _ _ => rfl) fun _ _ _ he => ⟨he.one, he.suspended⟩
  | assign id ws out =>
    cases hs
    exact h.update (fun _ _ _ => rfl) fun _ _ _ he => ⟨he.one, he.suspended⟩
  | forgetDisplaced id =>
    cases hs
    exact ⟨h.nodup, h.exclusive⟩
  | opened id window isDialogLike ws =>
    simp only [Desk.step] at hs
    split_ifs at hs with hf
    cases hs
    constructor
    · show ((desk.windows ++ [ManagedWindow.new id window isDialogLike ws]).map
        ManagedWindow.id).Nodup
      rw [map_append, nodup_append]
      refine ⟨h.nodup, nodup_singleton _, ?_⟩
      rintro a ha b hb rfl
      have hid : a = id := mem_singleton.mp hb
      exact hf (hid ▸ ha)
    · intro win hm
      rcases mem_append.mp hm with hold | hn
      · exact h.exclusive win hold
      · rw [mem_singleton.mp hn]
        exact new_exclusive id window isDialogLike ws
  | closed id =>
    cases hs
    exact h.closeWindow id

theorem start_orderly (around : Surroundings) : (start around).Orderly :=
  ⟨nodup_nil, by rintro win ⟨⟩⟩

/-- In a run whose operations keep the modes apart, no window is in two modes, and none keeps a
suspended pane unless it is maximized. -/
theorem modes_exclusive (around : Surroundings) {operations : List Operation}
    (hapart : Meets step KeepsApart (start around) operations)
    (hrun : run step (start around) operations = some next) :
    ∀ managed ∈ next.windows, managed.Exclusive :=
  (run_invariant_of_meets (fun hs hok ho => Orderly.step ho hs hok) hapart hrun
    (start_orderly around)).exclusive

/-- One normal output with its whole area for windows. -/
def oneOutput : Surroundings :=
  { outputs := [(1, {
      name := "DP-1"
      normal := true
      work := some ⟨⟨0, 0⟩, ⟨1920, 1080⟩⟩
      geometry := some ⟨⟨0, 0⟩, ⟨1920, 1080⟩⟩
      activeWorkspace := 1 })]
    primaryOutput := 1
    focusedOutput := 1
    activeWorkspace := 1
    outputUnderPointer := none
    splitScreenEnabled := true }

def terminal : ClientWindow :=
  { location := some ⟨200, 100⟩
    shownOn := some 1
    surface := ⟨800, 600⟩
    geometry := ⟨800, 600⟩
    minSize := ⟨0, 0⟩
    configured := none }

/-- A window maximized over its pane and shown in it again, and then fullscreen. -/
def paneAndBack : List Operation :=
  [.opened 1 terminal false 1, .display 1 true false, .recordSplitUndo [1],
    .placeWindowInSplitRect 1 1 ⟨⟨0, 0⟩, ⟨960, 1080⟩⟩, .setWindowMaximized 1 true,
    .reconcileSplitWorkAreas, .setWindowMaximized 1 false, .setWindowFullscreen 1 true none]

theorem modes_exclusive_example : ∃ next, run step (start oneOutput) paneAndBack = some next ∧
    (next.windows.map ManagedWindow.fullscreen = [true]) ∧
      ∀ managed ∈ next.windows, managed.Exclusive := by
  have h : (checkedRun step KeepsApart (start oneOutput) paneAndBack).any (fun next =>
      decide (next.windows.map ManagedWindow.fullscreen = [true])) = true := by decide
  obtain ⟨ha, next, hr, hf⟩ := exists_run_of_checked h
  exact ⟨next, hr, of_decide_eq_true hf, modes_exclusive oneOutput ha hr⟩

/-- A client that is fullscreen asks to be maximized, and is both. -/
theorem maximize_while_fullscreen : ¬∀ (around : Surroundings) (operations : List Operation)
    (next : Desk), run step (start around) operations = some next →
      ∀ managed ∈ next.windows, managed.Exclusive := by
  intro ha
  have h : (run step (start oneOutput) [.opened 1 terminal false 1, .display 1 true false,
      .setWindowFullscreen 1 true none, .setWindowMaximized 1 true]).any (fun next =>
        decide (¬∀ managed ∈ next.windows, managed.Exclusive)) = true := by decide
  obtain ⟨next, hr, hb⟩ := exists_run_of_any h
  exact of_decide_eq_true hb (ha oneOutput _ next hr)

end Desk

end FocalDesk.Window
