import FocalDesk.Window.Workspace

/-! When the deletion of a workspace renumbers every copy of a workspace number. -/
namespace FocalDesk.Window
open Library List Option Bool Desk

theorem Surroundings.Numbers.showing {P : WorkspaceId → Prop} {env : Surroundings}
    {f : OutputId → WorkspaceId → WorkspaceId} {actv : WorkspaceId} (ha : P actv)
    (ho : ∀ e ∈ env.outputs, P (f e.1 e.2.activeWorkspace)) :
    ({ env.showing f with activeWorkspace := actv } : Surroundings).Numbers P :=
  ⟨forall_mem_map.mpr ho, ha⟩

theorem Desk.Numbers.mono {P Q : WorkspaceId → Prop} {desk : Desk} (h : desk.Numbers P)
    (hPQ : ∀ number, P number → Q number) : desk.Numbers Q :=
  ⟨fun win hm => hPQ _ (h.windows win hm), fun saved hm => hPQ _ (h.undo saved hm),
    fun e hm => hPQ _ (h.displaced e hm),
    fun e hm => hPQ _ (h.around.outputs e hm), hPQ _ h.around.active⟩

namespace Workspaces

variable {s t : Workspaces} {number del count : ℕ}

/-- The name of a workspace, by its number. -/
def nameOf (s : Workspaces) (number : ℕ) : Option String :=
  if number = 0 then none else s.workspaceNames[number - 1]?

/-- Every number the session holds is one of a workspace. -/
structure InRange (s : Workspaces) : Prop where
  nonempty : 1 ≤ s.workspaceNames.length
  desk : s.desk.Numbers (Named s.workspaceNames.length)
  focus : ∀ entry ∈ s.workspaceFocus, Named s.workspaceNames.length entry.1.2
  assist : ∀ assist ∈ s.pendingSplitAssist, Named s.workspaceNames.length assist.workspace
  transitions : ∀ entry ∈ s.workspaceTransitions,
    Named s.workspaceNames.length entry.2.origin ∧ Named s.workspaceNames.length entry.2.target

/-- A number before the deletion and one after it stand for the same workspace. -/
structure SameWorkspace (s t : Workspaces) (before after : ℕ) : Prop where
  kept : before ≠ s.deletedNumber
  shifted : after = shiftDown s.deletedNumber before
  named : t.nameOf after = s.nameOf before
  exists_name : (s.nameOf before).isSome = true

/-- Everything is on or shows the workspace it did, and only the deleted one has a neighbour in
its place; its windows are on no workspace. -/
structure Renumbered (s t : Workspaces) : Prop where
  windows : List.Forall₂ (fun before after : ManagedWindow => after.id = before.id ∧
    (before.workspace ≠ s.deletedNumber → SameWorkspace s t before.workspace after.workspace) ∧
    (before.workspace = s.deletedNumber → t.nameOf after.workspace = none))
    s.desk.windows t.desk.windows
  outputs : List.Forall₂ (fun before after : OutputId × DeskOutput => after.1 = before.1 ∧
    (before.2.activeWorkspace ≠ s.deletedNumber →
      SameWorkspace s t before.2.activeWorkspace after.2.activeWorkspace) ∧
    (before.2.activeWorkspace = s.deletedNumber → ∃ neighbour,
      (neighbour = s.deletedNumber + 1 ∨ neighbour + 1 = s.deletedNumber) ∧
        SameWorkspace s t neighbour after.2.activeWorkspace))
    s.desk.around.outputs t.desk.around.outputs
  focus : ∀ after ∈ t.workspaceFocus, ∃ before ∈ s.workspaceFocus,
    after.2 = before.2 ∧ after.1.1 = before.1.1 ∧ SameWorkspace s t before.1.2 after.1.2
  undo : t.desk.splitUndo = s.desk.splitUndo ∧ ∀ saved ∈ s.desk.splitUndo.getD [],
    SameWorkspace s t saved.workspace saved.workspace
  displaced : t.desk.displacedSplitWindows = s.desk.displacedSplitWindows ∧
    ∀ entry ∈ s.desk.displacedSplitWindows, SameWorkspace s t entry.2.workspace entry.2.workspace
  assist : t.pendingSplitAssist = s.pendingSplitAssist ∧ ∀ assist ∈ s.pendingSplitAssist,
    SameWorkspace s t assist.workspace assist.workspace

/-- The deleted workspace has no window, and no record that is not renumbered has its number or one
above it. -/
def DeletesCleanly (s : Workspaces) : Prop :=
  (∀ managed ∈ s.desk.windows, managed.workspace ≠ s.deletedNumber) ∧
    (∀ saved ∈ s.desk.splitUndo.getD [], saved.workspace < s.deletedNumber) ∧
    (∀ entry ∈ s.desk.displacedSplitWindows, entry.2.workspace < s.deletedNumber) ∧
    ∀ assist ∈ s.pendingSplitAssist, assist.workspace < s.deletedNumber

instance (s : Workspaces) : Decidable s.DeletesCleanly :=
  inferInstanceAs (Decidable ((∀ managed ∈ s.desk.windows, _) ∧
    (∀ saved ∈ s.desk.splitUndo.getD [], _) ∧ (∀ entry ∈ s.desk.displacedSplitWindows, _) ∧
    ∀ assist ∈ s.pendingSplitAssist, _))

/-- The condition of an event: a deletion, if there are two workspaces, is a clean one. -/
def KeepsNumbers (s : Workspaces) : WorkspaceEvent → Prop
  | .deleteFocusedWorkspace => 1 < s.workspaceNames.length → s.DeletesCleanly
  | _ => True

instance (s : Workspaces) : (event : WorkspaceEvent) → Decidable (KeepsNumbers s event) := by
  intro event
  cases event <;> unfold KeepsNumbers <;> infer_instance

/-! ### The numbers stay in range -/

theorem Named.mono {more : ℕ} (h : Named count number) (hle : count ≤ more) : Named more number :=
  ⟨h.1, h.2.trans hle⟩

theorem named_of_hasWorkspace (h : s.hasWorkspace number) :
    Named s.workspaceNames.length number := by
  simp only [hasWorkspace, decide_eq_true_eq] at h
  exact ⟨Nat.one_le_iff_ne_zero.mpr h.1, h.2⟩

/-- What leaves the names, the focus memory, the pending pane and the transitions alone. -/
theorem InRange.withDesk (h : s.InRange) (hn : t.workspaceNames = s.workspaceNames)
    (hd : t.desk.Numbers (Named s.workspaceNames.length)) (hf : t.workspaceFocus = s.workspaceFocus)
    (ha : t.pendingSplitAssist = s.pendingSplitAssist)
    (ht : t.workspaceTransitions = s.workspaceTransitions) : t.InRange := by
  constructor
  · rw [hn]
    exact h.nonempty
  · rw [hn]
    exact hd
  · rw [hn, hf]
    exact h.focus
  · rw [hn, ha]
    exact h.assist
  · rw [hn, ht]
    exact h.transitions

namespace InRange

variable (h : s.InRange)
include h

theorem focused : Named s.workspaceNames.length s.focusedWorkspace :=
  Surroundings_active h.desk.around _ h.desk.around.active

theorem putFocus (out : OutputId) (win : WindowId) (hn : Named s.workspaceNames.length number) :
    ({ s with
      workspaceFocus := putKey (out, number) win s.workspaceFocus } : Workspaces).InRange := by
  refine ⟨h.nonempty, h.desk, fun e he => ?_, h.assist, h.transitions⟩
  rcases mem_of_mem_putKey he with rfl | hold
  · exact hn
  · exact h.focus e hold

theorem focusWindowId (id : WindowId) : (s.focusWindowId id).InRange := by
  unfold Workspaces.focusWindowId
  split
  next => exact h
  next win hw =>
    have hp := h.putFocus (s.outputOf win) id (h.desk.window hw)
    exact ⟨hp.nonempty, hp.desk, hp.focus, hp.assist, hp.transitions⟩

theorem focusTop (ws : WorkspaceId) :
    (s.focusTopWindowOnFocusedOutput ws).InRange := by
  unfold focusTopWindowOnFocusedOutput
  dsimp only
  split
  next => exact h.withDesk rfl h.desk rfl rfl rfl
  next id _ => exact h.focusWindowId id

theorem rememberFocus {prev : WorkspaceId}
    (hp : Named s.workspaceNames.length prev) : (s.rememberFocus prev).InRange := by
  unfold Workspaces.rememberFocus
  split
  next => exact h
  next id _ =>
    split_ifs
    · exact h.putFocus _ id hp
    · exact h

theorem showOnFocused (hn : Named s.workspaceNames.length number) :
    (s.showOnFocused number).InRange := by
  refine h.withDesk rfl ⟨h.desk.windows, h.desk.undo, h.desk.displaced, ?_⟩ rfl rfl rfl
  refine .showing hn fun e he => ?_
  split_ifs
  · exact hn
  · exact h.desk.around.outputs e he

end InRange

theorem rememberFocus_workspaceNames {prev : WorkspaceId} :
    (s.rememberFocus prev).workspaceNames = s.workspaceNames := by
  unfold rememberFocus
  split
  · rfl
  · split_ifs <;> rfl

theorem focusTop_workspaceNames {ws : WorkspaceId} :
    (s.focusTopWindowOnFocusedOutput ws).workspaceNames = s.workspaceNames := by
  unfold focusTopWindowOnFocusedOutput
  dsimp only
  split
  · rfl
  · unfold focusWindowId
    split <;> rfl

theorem activate_workspaceNames :
    (s.activateFocusedWorkspace number).workspaceNames = s.workspaceNames :=
  (focusTop_workspaceNames).trans rememberFocus_workspaceNames

namespace InRange

theorem activate (h : s.InRange) (hn : Named s.workspaceNames.length number) :
    (s.activateFocusedWorkspace number).InRange := by
  refine ((h.rememberFocus h.focused).showOnFocused ?_).focusTop number
  rw [rememberFocus_workspaceNames]
  exact hn

theorem startTransition (h : s.InRange) {origin : WorkspaceId}
    (ho : Named s.workspaceNames.length origin)
    (hn : Named s.workspaceNames.length number) :
    (s.startTransition origin number).InRange := by
  refine ⟨h.nonempty, h.desk, h.focus, h.assist, fun e he => ?_⟩
  rcases mem_of_mem_putKey he with rfl | hold
  · exact ⟨ho, hn⟩
  · exact h.transitions e hold

theorem forgetTransition (h : s.InRange) (out : OutputId) :
    ({ s with
      workspaceTransitions := removeKey out s.workspaceTransitions } : Workspaces).InRange :=
  ⟨h.nonempty, h.desk, h.focus, h.assist, fun e he => h.transitions e (mem_filter.mp he).1⟩

theorem setFocusedWorkspace (h : s.InRange) (number : WorkspaceId) :
    (s.setFocusedWorkspace number).InRange := by
  unfold Workspaces.setFocusedWorkspace
  by_cases hh : s.hasWorkspace number
  · have hn := named_of_hasWorkspace hh
    rw [hh, Bool.not_true, if_neg Bool.false_ne_true]
    split_ifs
    · exact h
    · refine (h.activate hn).startTransition ?_ ?_
      · rw [activate_workspaceNames]
        exact h.focused
      · rw [activate_workspaceNames]
        exact hn
    · exact h.activate hn
  · rw [not_eq_true] at hh
    rw [hh]
    exact h

theorem updateInteractiveTransition (h : s.InRange) (forward : Bool) :
    (s.updateInteractiveTransition forward).InRange := by
  unfold Workspaces.updateInteractiveTransition
  split
  next => exact h
  next =>
    dsimp only
    generalize (if forward then s.focusedWorkspace + 1 else s.focusedWorkspace - 1) = target
    split_ifs with hh
    · exact h.startTransition h.focused (named_of_hasWorkspace hh)
    · exact h.forgetTransition _

theorem settleInteractiveTransition (h : s.InRange) (tgt : Option WorkspaceId) :
    (s.settleInteractiveTransition tgt).InRange := by
  unfold Workspaces.settleInteractiveTransition
  split
  next => exact h
  next => exact h.setFocusedWorkspace _
  next hg =>
    split_ifs
    · exact h.activate (h.transitions _ (mem_of_getKey hg)).2
    · exact h

theorem create (h : s.InRange) (name : String) : (s.createWorkspaceFromDialog name).InRange := by
  unfold createWorkspaceFromDialog
  refine setFocusedWorkspace ?_ _
  have hle : s.workspaceNames.length ≤ (s.workspaceNames ++ [if (trim name).isEmpty then
      "Workspace " ++ toString (s.workspaceNames.length + 1) else trim name]).length := by simp
  exact ⟨h.nonempty.trans hle, h.desk.mono fun _ hn => hn.mono hle,
    fun e he => (h.focus e he).mono hle,
    fun assist ha => (h.assist assist ha).mono hle,
    fun e he => ⟨(h.transitions e he).1.mono hle, (h.transitions e he).2.mono hle⟩⟩

/-- A change of one window that brings a number in range or none. -/
theorem update (h : s.InRange) (id : WindowId) {f : ManagedWindow → ManagedWindow}
    (hf : ∀ win ∈ s.desk.windows, Named s.workspaceNames.length (f win).workspace) :
    ({ s with desk := s.desk.update id f } : Workspaces).InRange := by
  refine h.withDesk rfl ⟨?_, h.desk.undo, h.desk.displaced, h.desk.around⟩ rfl rfl rfl
  exact forall_mem_updateKey h.desk.windows fun win hm _ => hf win hm

theorem moveWindows (h : s.InRange) (ids : List WindowId) (out : OutputId)
    (hn : Named s.workspaceNames.length number) :
    (s.moveWindows ids number out).InRange := by
  refine h.withDesk rfl ?_ rfl rfl rfl
  exact foldl_invariant (Numbers (Named s.workspaceNames.length)) (fun _ => True)
    (fun _ _ hd _ => hd.assigned hn fun _ => rfl) h.desk fun _ _ => trivial

theorem moveWindowToWorkspace (h : s.InRange) (id : WindowId) (number : WorkspaceId) :
    (s.moveWindowToWorkspace id number).InRange := by
  unfold Workspaces.moveWindowToWorkspace
  by_cases hh : s.hasWorkspace number
  · rw [hh]
    split
    next => exact h
    next =>
      split
      next => exact h
      next =>
        split_ifs
        · exact h
        · exact h.moveWindows _ _ (named_of_hasWorkspace hh)
  · rw [not_eq_true] at hh
    rw [hh]
    exact h

theorem assignSlot (h : s.InRange) (slot : ℕ) : (s.assignSlot slot).InRange := by
  unfold Workspaces.assignSlot
  split
  next ws id hs _ =>
    have hn : Named s.workspaceNames.length ws := by
      simp only [workspaceForSlot, ite_none_right_eq_some, some.injEq] at hs
      obtain ⟨⟨-, hle⟩, rfl⟩ := hs
      exact ⟨Nat.le_add_left 1 slot, hle⟩
    split
    next => exact h.withDesk rfl h.desk rfl rfl rfl
    next =>
      split_ifs
      · exact (h.moveWindows _ _ hn).setFocusedWorkspace ws
      · exact h
  next => exact h

theorem actionMove (h : s.InRange) (id : WindowId) (number : WorkspaceId) :
    (s.actionMoveWindowToWorkspace id number).InRange := by
  unfold actionMoveWindowToWorkspace
  split_ifs with hh
  · exact h.update id fun _ _ => named_of_hasWorkspace hh
  · exact h

theorem dragTo (h : s.InRange) (id : WindowId) (out : OutputId) :
    (s.dragTo id out).InRange := by
  unfold Workspaces.dragTo
  split
  next => exact h
  next shown hs =>
    exact h.update id fun _ _ => h.desk.around.outputs _ (mem_of_getKey hs)

theorem applyWindowRule (h : s.InRange) (id : WindowId) (rule : WindowRule) :
    (s.applyWindowRule id rule).InRange := by
  refine h.update id fun win hm => ?_
  dsimp only
  cases hr : rule.workspace.filter fun number => decide (number ≤ s.workspaceNames.length) with
  | none => exact h.desk.windows win hm
  | some number =>
    obtain ⟨hg, hle⟩ := filter_eq_some_iff.mp hr
    exact ⟨rule.sanitized number hg, of_decide_eq_true hle⟩

theorem startSplitAssist (h : s.InRange) (src : WindowId) (out : OutputId) :
    (s.startSplitAssist src out).InRange := by
  refine ⟨h.nonempty, h.desk, h.focus, ?_, h.transitions⟩
  rintro assist ⟨⟩
  show Named _ (((s.desk.window src).map ManagedWindow.workspace).getD _)
  cases hw : s.desk.window src with
  | none => exact h.desk.around.active
  | some win => exact h.desk.window hw

theorem onDesk (h : s.InRange) {op : Operation} (hs : s.onDesk op = some t)
    (hb : Brings (Named s.workspaceNames.length) op) : t.InRange := by
  obtain ⟨desk, hd, rfl⟩ := map_eq_some_iff.mp hs
  exact h.withDesk rfl (h.desk.step hd hb) rfl rfl rfl

theorem openWindow (h : s.InRange) {id : WindowId} {window : ClientWindow} {isDialogLike : Bool}
    (hop : s.openWindow id window isDialogLike = some t) : t.InRange := by
  obtain ⟨opn, ho, rfl⟩ := map_eq_some_iff.mp hop
  have hr := h.onDesk ho h.focused
  exact hr.update id fun win hm => hr.desk.windows win hm

theorem closeWindow (h : s.InRange) (id : WindowId) : (s.closeWindow id).InRange := by
  have hs : s.desk.step (.closed id) = some (s.desk.closeWindow id) := rfl
  have hd := h.desk.step hs trivial
  exact ⟨h.nonempty, hd, fun e he => h.focus e (mem_filter.mp he).1, h.assist, h.transitions⟩

end InRange

theorem numbers_of_accepts {env : Surroundings} (h : s.accepts env) :
    env.Numbers (Named s.workspaceNames.length) := by
  obtain ⟨ha, ho⟩ := and_eq_true_iff.mp h
  exact ⟨fun e he => of_decide_eq_true (all_eq_true.mp ho e he), of_decide_eq_true ha⟩

theorem brings_of_copies {P : WorkspaceId → Prop} {op : Operation}
    (h : op.copies) : Brings P op := by
  cases op <;> first | exact trivial | cases h

/-! ### The deletion -/

theorem deletedNumber_eq (h : s.InRange) : s.deletedNumber = s.focusedWorkspace := by
  obtain ⟨hp, hle⟩ := h.focused
  rw [deletedNumber, max_eq_left hp, min_eq_left hle]

theorem named_deletedNumber (h : s.InRange) : Named s.workspaceNames.length s.deletedNumber := by
  rw [deletedNumber_eq h]
  exact h.focused

theorem renumbered_length (h : s.InRange) :
    s.renumbered.workspaceNames.length = s.workspaceNames.length - 1 := by
  obtain ⟨hp, hle⟩ := named_deletedNumber h
  show (s.workspaceNames.eraseIdx (s.deletedNumber - 1)).length = _
  exact length_eraseIdx_of_lt (by omega)

theorem named_fallback (h : s.InRange) (hm : 1 < s.workspaceNames.length) :
    Named s.renumbered.workspaceNames.length s.fallback := by
  obtain ⟨hp, hle⟩ := named_deletedNumber h
  rw [renumbered_length h, fallback]
  constructor <;> omega

theorem named_shiftDown (h : s.InRange) (hnu : Named s.workspaceNames.length number)
    (hk : number ≠ s.deletedNumber) :
    Named s.renumbered.workspaceNames.length (shiftDown s.deletedNumber number) := by
  obtain ⟨hp, hle⟩ := named_deletedNumber h
  obtain ⟨hnu, hn⟩ := hnu
  rw [renumbered_length h, shiftDown]
  split_ifs <;> constructor <;> omega

theorem named_repoint (h : s.InRange) (hm : 1 < s.workspaceNames.length)
    (hn : Named s.workspaceNames.length number) :
    Named s.renumbered.workspaceNames.length (repoint s.deletedNumber s.fallback number) := by
  unfold repoint
  split_ifs with hd
  · exact named_fallback h hm
  · exact named_shiftDown h hn hd

theorem shiftDown_of_lt (hlt : number < del) : shiftDown del number = number :=
  if_neg (Nat.not_lt.mpr hlt.le)

theorem InRange.renumbered (h : s.InRange) (hm : 1 < s.workspaceNames.length)
    (hc : s.DeletesCleanly) : s.renumbered.InRange := by
  obtain ⟨hw, hu, hd, ha⟩ := hc
  have hb : ∀ {number}, Named s.workspaceNames.length number → number < s.deletedNumber →
      Named s.renumbered.workspaceNames.length number := fun hnu hlt => by
    have hn := named_shiftDown h hnu hlt.ne
    rwa [shiftDown_of_lt hlt] at hn
  refine ⟨?_, ⟨?_, ?_, ?_, ?_⟩, ?_, ?_, ?_⟩
  · exact (named_fallback h hm).1.trans (named_fallback h hm).2
  · exact forall_mem_map.mpr fun win hme =>
      named_shiftDown h (h.desk.windows win hme) (hw win hme)
  · exact fun saved hs => hb (h.desk.undo saved hs) (hu saved hs)
  · exact fun e he => hb (h.desk.displaced e he) (hd e he)
  · exact .showing (named_repoint h hm h.desk.around.active) fun e he =>
      named_repoint h hm (h.desk.around.outputs e he)
  · intro e he
    obtain ⟨pre, hp, hso⟩ := mem_filterMap.mp he
    split_ifs at hso with hde
    cases hso
    exact named_shiftDown h (h.focus pre hp) hde
  · exact fun assist hme => hb (h.assist assist hme) (ha assist hme)
  · exact fun e he => absurd he not_mem_nil

/-- The focused output shows the fallback already. -/
theorem renumbered_focusedWorkspace (h : s.InRange) :
    s.renumbered.focusedWorkspace = s.fallback := by
  have hf : repoint s.deletedNumber s.fallback s.focusedWorkspace = s.fallback :=
    if_pos (deletedNumber_eq h).symm
  show ((getKey s.desk.around.focusedOutput (s.desk.around.outputs.map _)).map
    DeskOutput.activeWorkspace).getD _ = _
  have hs := getKey_map (fun shown : DeskOutput =>
    { shown with activeWorkspace := repoint s.deletedNumber s.fallback shown.activeWorkspace })
    s.desk.around.focusedOutput s.desk.around.outputs
  dsimp only at hs ⊢
  rw [hs]
  unfold focusedWorkspace Surroundings.focusedWorkspace at hf
  cases hg : getKey s.desk.around.focusedOutput s.desk.around.outputs with
  | none =>
    rw [hg] at hf
    exact hf
  | some shown =>
    rw [hg] at hf
    exact hf

theorem deleteFocusedWorkspace_eq (h : s.InRange) (hm : 1 < s.workspaceNames.length) :
    s.deleteFocusedWorkspace = s.renumbered := by
  unfold deleteFocusedWorkspace
  rw [if_neg (Nat.not_le.mpr hm)]
  unfold setFocusedWorkspace
  rw [renumbered_focusedWorkspace h]
  rw [if_pos rfl, ite_self]

theorem nameOf_isSome (h : Named s.workspaceNames.length number) :
    (s.nameOf number).isSome := by
  obtain ⟨hp, hle⟩ := h
  unfold nameOf
  rw [if_neg (by omega), getElem?_eq_getElem (by omega)]
  rfl

theorem renumbered_nameOf (h : s.InRange) (hp : 1 ≤ number) (hk : number ≠ s.deletedNumber) :
    s.renumbered.nameOf (shiftDown s.deletedNumber number) = s.nameOf number := by
  obtain ⟨hd, -⟩ := named_deletedNumber h
  have hn : s.renumbered.workspaceNames = s.workspaceNames.eraseIdx (s.deletedNumber - 1) := rfl
  unfold nameOf shiftDown
  rw [hn]
  rcases Nat.lt_or_gt_of_ne hk with hlt | hgt
  · rw [if_neg (Nat.not_lt.mpr hlt.le), getElem?_eraseIdx_of_lt (by omega)]
  · have hi : number - 1 - 1 + 1 = number - 1 := by omega
    rw [if_pos hgt, if_neg (by omega), if_neg (by omega), getElem?_eraseIdx_of_ge (by omega), hi]

theorem sameWorkspace_shiftDown (h : s.InRange) (hn : Named s.workspaceNames.length number)
    (hk : number ≠ s.deletedNumber) :
    SameWorkspace s s.renumbered number (shiftDown s.deletedNumber number) :=
  ⟨hk, rfl, renumbered_nameOf h hn.1 hk, nameOf_isSome hn⟩

theorem sameWorkspace_of_lt (h : s.InRange) (hn : Named s.workspaceNames.length number)
    (hlt : number < s.deletedNumber) : SameWorkspace s s.renumbered number number := by
  have hs := sameWorkspace_shiftDown h hn hlt.ne
  rwa [shiftDown_of_lt hlt] at hs

/-- A workspace that is next to the deleted one takes its place on the outputs. -/
theorem sameWorkspace_fallback (h : s.InRange) (hm : 1 < s.workspaceNames.length) :
    ∃ neighbour, (neighbour = s.deletedNumber + 1 ∨ neighbour + 1 = s.deletedNumber) ∧
      SameWorkspace s s.renumbered neighbour s.fallback := by
  obtain ⟨hp, hle⟩ := named_deletedNumber h
  rcases Nat.lt_or_ge s.deletedNumber s.workspaceNames.length with hlt | hge
  · have hf : s.fallback = shiftDown s.deletedNumber (s.deletedNumber + 1) := by
      rw [fallback, shiftDown, if_pos (Nat.lt_succ_self _)]
      omega
    refine ⟨s.deletedNumber + 1, .inl rfl, ?_⟩
    rw [hf]
    exact sameWorkspace_shiftDown h ⟨Nat.le_add_left _ _, hlt⟩ (Nat.succ_ne_self _)
  · have hf : s.fallback = s.deletedNumber - 1 := by
      rw [fallback]
      omega
    refine ⟨s.deletedNumber - 1, .inr (Nat.sub_add_cancel hp), ?_⟩
    rw [hf]
    exact sameWorkspace_of_lt h (by constructor <;> omega) (by omega)

theorem renumbered_spec (h : s.InRange) (hma : 1 < s.workspaceNames.length) (hc : s.DeletesCleanly)
    : Renumbered s s.renumbered := by
  obtain ⟨hw, hu, hdi, ha⟩ := hc
  constructor
  · refine List.forall₂_map_right_iff.mpr (List.forall₂_same.mpr fun win hm => ?_)
    exact ⟨rfl, sameWorkspace_shiftDown h (h.desk.windows win hm), fun hd => absurd hd (hw win hm)⟩
  · refine List.forall₂_map_right_iff.mpr (List.forall₂_same.mpr fun e hm => ?_)
    refine ⟨rfl, fun hk => ?_, fun hd => ?_⟩
    · show SameWorkspace s s.renumbered e.2.activeWorkspace
        (repoint s.deletedNumber s.fallback e.2.activeWorkspace)
      rw [repoint, if_neg hk]
      exact sameWorkspace_shiftDown h (h.desk.around.outputs e hm) hk
    · show ∃ neighbour, _ ∧ SameWorkspace s s.renumbered neighbour
        (repoint s.deletedNumber s.fallback e.2.activeWorkspace)
      rw [repoint, if_pos hd]
      exact sameWorkspace_fallback h hma
  · intro after haf
    obtain ⟨pre, hp, hs⟩ := mem_filterMap.mp haf
    split_ifs at hs with hd
    cases hs
    exact ⟨pre, hp, rfl, rfl, sameWorkspace_shiftDown h (h.focus pre hp) hd⟩
  · exact ⟨rfl, fun saved hm => sameWorkspace_of_lt h (h.desk.undo saved hm) (hu saved hm)⟩
  · exact ⟨rfl, fun e hm =>
      sameWorkspace_of_lt h (h.desk.displaced e hm) (hdi e hm)⟩
  · exact ⟨rfl, fun assist hm =>
      sameWorkspace_of_lt h (h.assist assist hm) (ha assist hm)⟩

theorem SameWorkspace.lt (h : SameWorkspace s t number number) : number < s.deletedNumber := by
  obtain ⟨hk, hs, -, -⟩ := h
  rw [shiftDown] at hs
  split_ifs at hs <;> omega

theorem InRange.deleteFocusedWorkspace (h : s.InRange)
    (hc : 1 < s.workspaceNames.length → s.DeletesCleanly) :
    s.deleteFocusedWorkspace.InRange := by
  by_cases hm : 1 < s.workspaceNames.length
  · rw [deleteFocusedWorkspace_eq h hm]
    exact h.renumbered hm (hc hm)
  · unfold Workspaces.deleteFocusedWorkspace
    rw [if_pos (Nat.not_lt.mp hm)]
    exact h

theorem Renumbered.window_gone (h : Renumbered s s.renumbered) {win : ManagedWindow}
    (hm : win ∈ s.desk.windows) (hd : win.workspace = s.deletedNumber) :
    s.renumbered.nameOf s.deletedNumber = none := by
  have hs := List.forall₂_same.mp (List.forall₂_map_right_iff.mp h.windows) win hm
  have hg : s.renumbered.nameOf (shiftDown s.deletedNumber win.workspace) = none := hs.2.2 hd
  rwa [hd, shiftDown, if_neg (Nat.lt_irrefl _)] at hg

/-- One deletion renumbers every copy exactly if it is a clean one. -/
theorem deletesCleanly_iff (h : s.InRange) (hma : 1 < s.workspaceNames.length) :
    s.DeletesCleanly ↔
      Renumbered s s.deleteFocusedWorkspace ∧ s.deleteFocusedWorkspace.InRange := by
  rw [deleteFocusedWorkspace_eq h hma]
  constructor
  · exact fun hc => ⟨renumbered_spec h hma hc, h.renumbered hma hc⟩
  · rintro ⟨hr, hra⟩
    refine ⟨fun win hm hd => ?_, fun saved hm => (hr.undo.2 saved hm).lt,
      fun e hm => (hr.displaced.2 e hm).lt,
      fun assist hm => (hr.assist.2 assist hm).lt⟩
    -- the window keeps its number, which is out of range or a neighbour's
    have hg := hr.window_gone hm hd
    have hnu : Named s.renumbered.workspaceNames.length
        (shiftDown s.deletedNumber win.workspace) :=
      hra.desk.windows _ (mem_map_of_mem hm)
    rw [hd, shiftDown, if_neg (Nat.lt_irrefl _)] at hnu
    have hn := nameOf_isSome hnu
    rw [hg] at hn
    cases hn

theorem InRange.step (h : s.InRange) {ev : WorkspaceEvent} (hs : s.step ev = some t)
    (hk : KeepsNumbers s ev) : t.InRange := by
  cases ev with
  | createWorkspaceFromDialog name =>
    cases hs
    exact h.create name
  | deleteFocusedWorkspace =>
    cases hs
    exact h.deleteFocusedWorkspace hk
  | setFocusedWorkspace ws =>
    cases hs
    exact h.setFocusedWorkspace ws
  | updateInteractiveTransition forward =>
    cases hs
    exact h.updateInteractiveTransition forward
  | settleInteractiveTransition tgt =>
    cases hs
    exact h.settleInteractiveTransition tgt
  | forgetTransition out =>
    cases hs
    exact h.forgetTransition out
  | focusWindowId id =>
    cases hs
    exact h.focusWindowId id
  | restack stacking =>
    cases hs
    exact h.withDesk rfl h.desk rfl rfl rfl
  | moveWindowToWorkspace id ws =>
    cases hs
    exact h.moveWindowToWorkspace id ws
  | assignSlot slot =>
    cases hs
    exact h.assignSlot slot
  | actionMoveWindowToWorkspace id ws =>
    cases hs
    exact h.actionMove id ws
  | dragTo id out =>
    cases hs
    exact h.dragTo id out
  | applyWindowRule id rule =>
    cases hs
    exact h.applyWindowRule id rule
  | startSplitAssist src out =>
    cases hs
    exact h.startSplitAssist src out
  | takeSplitAssist =>
    cases hs
    exact ⟨h.nonempty, h.desk, h.focus, by rintro assist ⟨⟩, h.transitions⟩
  | openWindow id win isDialogLike => exact h.openWindow hs
  | closeWindow id =>
    cases hs
    exact h.closeWindow id
  | surroundings env =>
    simp only [Workspaces.step, ite_none_right_eq_some] at hs
    exact h.onDesk hs.2 (numbers_of_accepts hs.1)
  | rebuildOutputs env =>
    simp only [Workspaces.step, ite_none_right_eq_some] at hs
    have hf : ({ s with workspaceFocus := [] } : Workspaces).InRange :=
      ⟨h.nonempty, h.desk, fun e he => absurd he not_mem_nil, h.assist, h.transitions⟩
    exact hf.onDesk hs.2 (numbers_of_accepts hs.1)
  | operation operation =>
    simp only [Workspaces.step, ite_none_right_eq_some] at hs
    exact h.onDesk hs.2 (brings_of_copies hs.1)

theorem inRange_start (fst : String) (rest : List String) (env : Surroundings) (animations : Bool)
    : (start fst rest env animations).InRange := by
  have ho : Named (fst :: rest).length 1 := ⟨Nat.le_refl 1, Nat.le_add_left 1 rest.length⟩
  refine ⟨Nat.le_add_left 1 rest.length, ⟨?_, ?_, ?_, .showing ho fun _ _ => ho⟩, ?_, ?_, ?_⟩
  all_goals intro e he; cases he

/-- Every number is one of a workspace after the events, and a deletion then renumbers every
copy exactly if it is a clean one. -/
theorem deletion_renumbers (first : String) (rest : List String) (around : Surroundings)
    (animations : Bool) {events : List WorkspaceEvent}
    (hkeeps : Meets step KeepsNumbers (start first rest around animations) events)
    (hrun : run step (start first rest around animations) events = some s) :
    s.InRange ∧ (1 < s.workspaceNames.length →
      (s.DeletesCleanly ↔
        Renumbered s s.deleteFocusedWorkspace ∧ s.deleteFocusedWorkspace.InRange)) := by
  have hr : s.InRange :=
    run_invariant_of_meets (fun hs hok h => h.step hs hok) hkeeps hrun
      (inRange_start first rest around animations)
  exact ⟨hr, deletesCleanly_iff hr⟩

/-- Two windows on the first and the third workspace, and the second one is deleted: it is empty. -/
def emptyDeleted : List WorkspaceEvent :=
  [.openWindow 1 Desk.terminal false, .setFocusedWorkspace 3, .openWindow 2 Desk.terminal false,
    .operation (.display 2 true false), .focusWindowId 2, .setFocusedWorkspace 2]

theorem deletion_renumbers_example : ∃ s,
    run step (start "Mail" ["Web", "Music"] Desk.oneOutput true) emptyDeleted = some s ∧
      Renumbered s s.deleteFocusedWorkspace := by
  have h : (checkedRun step KeepsNumbers (start "Mail" ["Web", "Music"] oneOutput true)
      emptyDeleted).any (fun s => decide (1 < s.workspaceNames.length ∧ s.DeletesCleanly)) =
        true := by decide
  obtain ⟨hk, s, hr, hc⟩ := exists_run_of_checked h
  obtain ⟨hm, hc⟩ := of_decide_eq_true hc
  have hs := (deletion_renumbers "Mail" ["Web", "Music"] oneOutput true hk hr).2 hm
  exact ⟨s, hr, (hs.mp hc).1⟩

/-- A window of the deleted workspace, which is only asked to close, is on the next workspace. -/
theorem window_on_next_workspace : ¬∀ (first : String) (rest : List String) (around : Surroundings)
    (animations : Bool) (events : List WorkspaceEvent) (s : Workspaces),
    run step (start first rest around animations) events = some s →
      1 < s.workspaceNames.length → Renumbered s s.deleteFocusedWorkspace := by
  intro ha
  have h : (run step (start "Mail" ["Web", "Music"] oneOutput true) [.setFocusedWorkspace 2,
      .openWindow 1 terminal false]).any (fun s => decide (1 < s.workspaceNames.length ∧
        s.deleteFocusedWorkspace = s.renumbered ∧ (∃ win ∈ s.desk.windows,
          win.workspace = s.deletedNumber) ∧
            s.renumbered.nameOf s.deletedNumber = some "Music")) = true := by decide
  obtain ⟨s, hru, hs⟩ := exists_run_of_any h
  obtain ⟨hm, hde, ⟨win, hme, hd⟩, hn⟩ := of_decide_eq_true hs
  have hr := ha "Mail" ["Web", "Music"] oneOutput true _ s hru hm
  rw [hde] at hr
  rw [hr.window_gone hme hd] at hn
  cases hn

end Workspaces

end FocalDesk.Window
