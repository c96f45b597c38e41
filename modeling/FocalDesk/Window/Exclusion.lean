import FocalDesk.Library.Transition
import FocalDesk.Window.Orderly

/-! When the modes of the windows exclude each other over a run. -/
namespace FocalDesk.Window
open Library List

namespace Desk

variable {base desk next placed : Desk} {id : WindowId} {out : OutputId}
  {placement : SavedSplitPlacement}

/-- Every displaced window that a pane is there for covers nothing. -/
def DisplacedUncovered (desk : Desk) : Prop :=
  ∀ entry ∈ desk.displacedCandidates,
    (desk.livePane entry.1 entry.2.1 entry.2.2.placement).isSome = true → desk.Uncovered entry.1

instance (desk : Desk) : Decidable desk.DisplacedUncovered :=
  inferInstanceAs (Decidable (∀ entry ∈ desk.displacedCandidates, _ → _))

theorem mem_displacedCandidates {e : WindowId × OutputId × DisplacedSplitWindow} :
    e ∈ desk.displacedCandidates ↔ (e.1, e.2.2) ∈ desk.displacedSplitWindows ∧
      desk.around.outputByName e.2.2.connector = some e.2.1 := by
  obtain ⟨id, out, displaced⟩ := e
  simp only [displacedCandidates, mem_filterMap, Option.map_eq_some_iff]
  constructor
  · rintro ⟨⟨id', displaced'⟩, hm, output', hn, heq⟩
    cases heq
    exact ⟨hm, hn⟩
  · rintro ⟨hm, hn⟩
    exact ⟨(id, displaced), hm, out, hn, rfl⟩

/-- What holds all through a reflow that began at `base`. -/
structure Reflowing (base desk : Desk) : Prop where
  orderly : desk.Orderly
  same : SameModes base desk
  displaced : base.DisplacedUncovered → desk.DisplacedUncovered

theorem Reflowing.refl (h : desk.Orderly) : Reflowing desk desk :=
  ⟨h, .refl desk, fun hd => hd⟩

/-- Displaced windows may be added when they cover nothing, and dropped. -/
theorem DisplacedUncovered.of_subset (h : desk.DisplacedUncovered) (hs : SameModes desk next)
    (hm : ∀ e ∈ next.displacedSplitWindows,
      e ∈ desk.displacedSplitWindows ∨ desk.Uncovered e.1) : next.DisplacedUncovered := by
  intro e he hp
  obtain ⟨hin, hn⟩ := (mem_displacedCandidates).mp he
  rw [hs.names] at hn
  rw [hs.livePane] at hp
  rcases hm _ hin with hold | hne
  · exact hs.uncovered.mpr (h e ((mem_displacedCandidates).mpr ⟨hold, hn⟩) hp)
  · exact hs.uncovered.mpr hne

namespace Reflowing

variable (h : Reflowing base desk)
include h

theorem update {f : ManagedWindow → ManagedWindow}
    (hm : ∀ managed ∈ desk.windows, managed.id = id → (f managed).mode = managed.mode)
    (hf : ∀ managed ∈ desk.windows, managed.id = id → managed.Exclusive → (f managed).Exclusive) :
    Reflowing base (desk.update id f) := by
  have hs := sameModes_update desk id hm
  refine ⟨h.orderly.update (fun managed hme hid => ?_) hf, h.same.trans hs,
    fun hb => (h.displaced hb).of_subset hs fun _ he => .inl he⟩
  exact ManagedWindow.id_eq_of_mode (hm managed hme hid)

theorem of_windows (hw : next.windows = desk.windows) (ha : next.around = desk.around)
    (hm : ∀ e ∈ next.displacedSplitWindows,
      e ∈ desk.displacedSplitWindows ∨ base.Uncovered e.1) : Reflowing base next := by
  have hs := sameModes_of_windows hw ha
  refine ⟨(orderly_congr hw).mpr h.orderly, h.same.trans hs, fun hb =>
    (h.displaced hb).of_subset hs fun e he => ?_⟩
  exact (hm e he).imp_right h.same.uncovered.mpr

theorem forgetDisplaced (id : WindowId) : Reflowing base (desk.forgetDisplaced id) :=
  h.of_windows rfl rfl fun _ he => .inl (mem_filter.mp he).1

theorem displace (hu : base.Uncovered id) (displaced : DisplacedSplitWindow) :
    Reflowing base (desk.displace id displaced) := by
  refine h.of_windows rfl rfl fun e he => ?_
  rcases mem_of_mem_putKey he with rfl | hold
  · exact .inr hu
  · exact .inl hold

theorem rememberDisplacedSplit (hu : base.Uncovered id) (out : OutputId)
    (placement : SavedSplitPlacement) :
    Reflowing base (desk.rememberDisplacedSplit id out placement) := by
  unfold Desk.rememberDisplacedSplit
  split
  next => exact h.displace hu _
  next => exact h

theorem restoreLive (hu : base.Uncovered id)
    (hp : desk.restoreLiveSplitPlacement id out placement = some placed) :
    Reflowing base placed := by
  obtain ⟨tgt, -, rfl⟩ := Option.map_eq_some_iff.mp hp
  refine h.update (fun _ _ _ => rfl) fun managed hm hid he => ?_
  have hl := h.same.uncovered.mpr hu managed hm hid
  exact (ManagedWindow.configure_exclusive _).mpr (.of_uncovered hl (he.suspended_eq_none hl.1))

theorem clampFloatingWindowToWork (id : WindowId) (out : OutputId) (work : Rect) :
    Reflowing base (desk.clampFloatingWindowToWork id out work) :=
  h.update (fun _ _ _ => ManagedWindow.clampFloatingToWork_mode)
    fun _ _ _ he => he.clampFloatingToWork

theorem reflowSplitWindow {work : Rect} {e : WindowId × SavedSplitPlacement}
    (hu : base.Uncovered e.1) : Reflowing base (desk.reflowSplitWindow out work e) := by
  unfold Desk.reflowSplitWindow
  split
  next placed hp => exact (h.restoreLive hu hp).forgetDisplaced e.1
  next => exact (h.rememberDisplacedSplit hu out e.2).clampFloatingWindowToWork _ _ _

theorem reflowSplitWindowsForOutput (out : OutputId) (oldWork : Rect) :
    Reflowing base (desk.reflowSplitWindowsForOutput out oldWork) := by
  unfold Desk.reflowSplitWindowsForOutput
  dsimp only
  split
  next => exact h
  next work _ =>
    refine foldl_invariant (Reflowing base) (fun e => base.Uncovered e.1)
      (fun _ _ hd hu => hd.reflowSplitWindow hu) h ?_
    intro e he
    obtain ⟨managed, hm, hp⟩ := mem_filterMap.mp he
    split_ifs at hp
    obtain ⟨placement, hpl, rfl⟩ := Option.map_eq_some_iff.mp hp
    obtain ⟨tile, ht, -⟩ := Option.bind_eq_some_iff.mp hpl
    exact h.same.uncovered.mp (h.orderly.uncovered_of_tile hm (by simp [ht]))

theorem reflowConstrainedWindowsForOutput (out : OutputId) :
    Reflowing base (desk.reflowConstrainedWindowsForOutput out) := by
  unfold Desk.reflowConstrainedWindowsForOutput
  split
  next => exact h
  next work _ =>
    generalize hf : (fun managed : ManagedWindow =>
      if managed.output = some out ∧ managed.mapped ∧ managed.minimized = false ∧
          (managed.fullscreen ∨ managed.maximized) then
        managed.configure work
      else managed) = f
    have hmo : ∀ managed, (f managed).mode = managed.mode := by
      intro managed
      rw [← hf]
      dsimp only
      split_ifs <;> rfl
    have hex : ∀ managed, managed.Exclusive → (f managed).Exclusive := by
      intro managed hm
      rw [← hf]
      dsimp only
      split_ifs
      · exact (ManagedWindow.configure_exclusive _).mpr hm
      · exact hm
    have hmd : (desk.windows.map f).map ManagedWindow.mode = desk.modes := by
      rw [map_map]
      exact map_congr_left fun managed _ => hmo managed
    have hs : SameModes desk { desk with windows := desk.windows.map f } := ⟨hmd, rfl, rfl⟩
    refine ⟨⟨?_, ?_⟩, h.same.trans hs,
      fun hb => (h.displaced hb).of_subset hs fun _ he => .inl he⟩
    · show ((desk.windows.map f).map ManagedWindow.id).Nodup
      have hi : (desk.windows.map f).map ManagedWindow.id =
          desk.windows.map ManagedWindow.id := by
        rw [map_map]
        exact map_congr_left fun managed _ => ManagedWindow.id_eq_of_mode (hmo managed)
      rw [hi]
      exact h.orderly.nodup
    · exact forall_mem_map.mpr fun managed hme =>
        hex managed (h.orderly.exclusive managed hme)

theorem reflowOutput (e : OutputId × Rect) : Reflowing base (desk.reflowOutput e) :=
  (h.reflowSplitWindowsForOutput e.1 e.2).reflowConstrainedWindowsForOutput e.1

theorem restoreDisplaced {e : WindowId × OutputId × DisplacedSplitWindow}
    (hu : (base.livePane e.1 e.2.1 e.2.2.placement).isSome →
      base.Uncovered e.1) : Reflowing base (desk.restoreDisplaced e) := by
  unfold Desk.restoreDisplaced
  split
  next => exact h
  next placed hp =>
    obtain ⟨tgt, hpa, -⟩ := Option.map_eq_some_iff.mp hp
    rw [h.same.livePane] at hpa
    have hp' := h.restoreLive (hu (by simp [hpa])) hp
    refine Reflowing.forgetDisplaced ?_ e.1
    exact hp'.update (fun _ _ _ => rfl) fun _ _ _ he =>
      ⟨he.one, he.suspended⟩

theorem restoreDisplacedSplitWindows (hb : base.DisplacedUncovered) :
    Reflowing base desk.restoreDisplacedSplitWindows := by
  refine foldl_invariant (Reflowing base)
    (fun e => (base.livePane e.1 e.2.1 e.2.2.placement).isSome → base.Uncovered e.1)
    (fun _ _ hd hu => hd.restoreDisplaced hu) h ?_
  intro e he hp
  rw [← h.same.livePane] at hp
  exact h.same.uncovered.mp (h.displaced hb e he hp)

theorem rehomeSplit (hu : base.Uncovered id) :
    Reflowing base (desk.rehomeSplit id out placement) := by
  unfold Desk.rehomeSplit
  split
  next placed hp => exact (h.restoreLive hu hp).forgetDisplaced id
  next =>
    have hm := h.rememberDisplacedSplit hu out placement
    dsimp only
    split
    next => exact hm
    next => exact hm.clampFloatingWindowToWork _ _ _

end Reflowing

end Desk

/-! ### The outputs are rebuilt -/

namespace ManagedWindow

variable {win : ManagedWindow} {default : Rect} {out : OutputId}

theorem enterFullscreen_mode {rect : Option Rect} (hma : win.maximized = false) :
    (win.enterFullscreen default rect out).mode = { win.mode with fullscreen := true } := by
  have hm : (win.restoreSplit default).mode = win.mode := restoreSplit_mode
  have hs := congrArg WindowMode.minSize hm
  simp only [ManagedWindow.mode] at hs
  unfold ManagedWindow.enterFullscreen ManagedWindow.fillOutput
  dsimp only
  rw [restoreSplit_fullscreen]
  by_cases hf : win.fullscreen
  · rw [if_pos hf]
    simp [ManagedWindow.mode, hs, hf]
  · rw [if_neg hf]
    cases rect with
    | none => simp [ManagedWindow.mode, hs]
    | some rect => simp [ManagedWindow.mode, configure, hs, hma]

/-- A window that takes its fullscreen mode again is in that mode alone. -/
theorem Exclusive.rehomeFullscreen {rect : Option Rect} (h : win.Exclusive) (hf : win.fullscreen) :
    ({ win with fullscreen := false }.enterFullscreen default rect out).Exclusive ∧
      ({ win with fullscreen := false }.enterFullscreen default rect out).mode = win.mode := by
  have hm : win.maximized = false := by
    cases hm : win.maximized with
    | false => rfl
    | true => exact absurd (h.fullscreen hm) (by simp [hf])
  have hle : ManagedWindow.Exclusive { win with fullscreen := false } :=
    .of_uncovered ⟨hm, rfl⟩ (h.suspended_eq_none hm)
  refine ⟨hle.enterFullscreen fun hc => ?_, ?_⟩
  · rw [hm] at hc
    cases hc
  · have hl : ({ win with fullscreen := false } : ManagedWindow).maximized = false := hm
    refine (enterFullscreen_mode hl).trans ?_
    simp [ManagedWindow.mode, hf]

theorem Exclusive.rehomeMaximized {work ownWork : Option Rect} (h : win.Exclusive)
    (hm : win.maximized) :
    ({ win with maximized := false }.setMaximized work ownWork true).Exclusive ∧
      ({ win with maximized := false }.setMaximized work ownWork true).mode = win.mode := by
  have hf := h.fullscreen hm
  have hs : ({ win with maximized := false } : ManagedWindow).setMaximized work ownWork true =
      ({ win with maximized := false } : ManagedWindow).maximize work := rfl
  rw [hs]
  refine ⟨.maximize hf, ?_⟩
  unfold ManagedWindow.maximize
  cases win.tileRect <;> cases work <;> simp [ManagedWindow.mode, configure, hm]

end ManagedWindow

namespace Desk

variable {base desk : Desk} {id : WindowId} {focused : OutputId} {workspace : WorkspaceId}

theorem update_update (desk : Desk) (id : WindowId) {f : ManagedWindow → ManagedWindow}
    (hid : ∀ managed, (f managed).id = managed.id) (g : ManagedWindow → ManagedWindow) :
    (desk.update id f).update id g = desk.update id fun managed => g (f managed) := by
  unfold update updateKey
  dsimp only
  rw [map_map]
  congr 1
  refine map_congr_left fun managed _ => ?_
  by_cases hk : managed.id = id
  · simp [hk, hid managed]
  · simp [hk]

/-- The windows on their way are those that covered nothing when they had a pane, and those that
are in the modes they are to take again. -/
def Rehomeable (base : Desk) : Rehome → Prop
  | .split id _ _ => base.Uncovered id
  | .home id fullscreen maximized => ∀ mode ∈ base.modes, mode.id = id →
      mode.fullscreen = fullscreen ∧ mode.maximized = maximized

namespace Reflowing

variable (h : Reflowing base desk)
include h

theorem restoreSplitWindow (id : WindowId) : Reflowing base (desk.restoreSplitWindow id) :=
  h.update (fun _ _ _ => ManagedWindow.restoreSplit_mode) fun _ _ _ he => he.restoreSplit

theorem rehomeMode {work : Option Rect} {fullscreen maximized : Bool}
    (hf : Rehomeable base (.home id fullscreen maximized)) :
    Reflowing base (desk.rehomeMode focused work id fullscreen maximized) := by
  have hd := h.restoreSplitWindow id
  have hmo : ∀ managed ∈ (desk.restoreSplitWindow id).windows, managed.id = id →
      managed.fullscreen = fullscreen ∧ managed.maximized = maximized := by
    intro managed hm hid
    refine hf managed.mode ?_ hid
    rw [← hd.same.modes]
    exact mem_map_of_mem hm
  unfold Desk.rehomeMode
  dsimp only
  split_ifs with hfu hma
  · unfold Desk.setWindowFullscreen
    have hid : ∀ managed : ManagedWindow,
      ({ managed with fullscreen := false } : ManagedWindow).id = managed.id := fun _ => rfl
    rw [update_update _ _ hid]
    have ht := fun managed (hm : managed ∈ (desk.restoreSplitWindow id).windows)
      (hid : managed.id = id) => (hmo managed hm hid).1.trans hfu
    refine hd.update (fun managed hm hid => ?_) fun managed hm hid he => ?_
    · exact ((hd.orderly.exclusive managed hm).rehomeFullscreen
        (ht managed hm hid)).2
    · exact (he.rehomeFullscreen (ht managed hm hid)).1
  · unfold Desk.setWindowMaximized
    have hid : ∀ managed : ManagedWindow,
      ({ managed with maximized := false } : ManagedWindow).id = managed.id := fun _ => rfl
    rw [update_update _ _ hid]
    have ht := fun managed (hm : managed ∈ (desk.restoreSplitWindow id).windows)
      (hid : managed.id = id) => (hmo managed hm hid).2.trans hma
    refine hd.update (fun managed hm hid => ?_) fun managed hm hid he => ?_
    · exact ((hd.orderly.exclusive managed hm).rehomeMaximized (ht managed hm hid)).2
    · exact (he.rehomeMaximized (ht managed hm hid)).1
  · split
    next => exact hd
    next => exact hd.clampFloatingWindowToWork _ _ _

theorem rehomeOne {work : Option Rect} {e : Rehome} (he : Rehomeable base e) :
    Reflowing base (desk.rehomeOne focused work e) := by
  cases e with
  | split id output placement => exact h.rehomeSplit he
  | home id fullscreen maximized => exact h.rehomeMode he

/-- A change of output and workspace alone. -/
theorem assign (f : ManagedWindow → ManagedWindow)
    (hf : ∀ managed, (f managed).mode = managed.mode ∧ (f managed).tileRect = managed.tileRect ∧
      (f managed).suspendedTileRect = managed.suspendedTileRect) (id : WindowId) :
    Reflowing base (desk.update id f) := by
  refine h.update (fun managed _ _ => (hf managed).1) fun managed _ _ he => ?_
  obtain ⟨hm, ht, hs⟩ := hf managed
  have hma : (f managed).maximized = managed.maximized := congrArg WindowMode.maximized hm
  have hfu : (f managed).fullscreen = managed.fullscreen := congrArg WindowMode.fullscreen hm
  refine ⟨?_, ?_⟩
  · rw [ManagedWindow.modeCount, ht, hma, hfu]
    exact he.one
  · rw [hs, hma]
    exact he.suspended

theorem rehomeWindow (focused : OutputId) (workspace : WorkspaceId) {saved : OutputWindowSnapshot}
    (hs : saved.split.isSome → base.Uncovered saved.id) :
    Reflowing base (desk.rehomeWindow focused workspace saved).1 ∧
      ∀ e ∈ (desk.rehomeWindow focused workspace saved).2, Rehomeable base e := by
  unfold Desk.rehomeWindow
  cases hw : desk.window saved.id with
  | none => exact ⟨h, by simp⟩
  | some managed =>
    dsimp only
    obtain ⟨hme, hid⟩ := mem_of_window hw
    cases desk.rehomeTarget saved managed with
    | some tgt =>
      dsimp only
      cases hp : saved.split with
      | some split =>
        refine ⟨h.assign _ (by exact fun _ => ⟨rfl, rfl, rfl⟩) _, ?_⟩
        exact forall_mem_singleton.mpr (hs (by simp [hp]))
      | none => exact ⟨h.assign _ (by exact fun _ => ⟨rfl, rfl, rfl⟩) _, by simp⟩
    | none =>
      dsimp only
      have hm := h.assign (fun managed => { managed with output := some focused, workspace })
        (by exact fun _ => ⟨rfl, rfl, rfl⟩) saved.id
      constructor
      · cases saved.outputName with
        | none => exact hm
        | some con =>
          cases hp : saved.split with
          | none => exact hm
          | some placement => exact hm.displace (hs (by simp [hp])) _
      · refine forall_mem_singleton.mpr fun mode hmo hk => ?_
        rw [← h.same.modes] at hmo
        obtain ⟨other, ho, rfl⟩ := mem_map.mp hmo
        obtain rfl := inj_on_of_nodup_map h.orderly.nodup ho hme (hk.trans hid.symm)
        exact ⟨rfl, rfl⟩

omit h in
theorem rehomeWindows (h : Reflowing base desk) (focused : OutputId) (workspace : WorkspaceId)
    {snapshots : List OutputWindowSnapshot}
    (hs : ∀ saved ∈ snapshots, saved.split.isSome → base.Uncovered saved.id) :
    Reflowing base (Desk.rehomeWindows focused workspace desk snapshots).1 ∧
      ∀ e ∈ (Desk.rehomeWindows focused workspace desk snapshots).2, Rehomeable base e := by
  induction snapshots generalizing desk with
  | nil => exact ⟨h, by simp [Desk.rehomeWindows]⟩
  | cons saved snapshots ih =>
    obtain ⟨hf, hr⟩ := forall_mem_cons.mp hs
    obtain ⟨hon, hen⟩ := h.rehomeWindow focused workspace hf
    obtain ⟨ha, ho⟩ := ih hon hr
    refine ⟨ha, fun e he => ?_⟩
    rcases mem_append.mp he with hin | hin
    · exact hen e hin
    · exact ho e hin

end Reflowing

theorem workRecessForOutput_mapEntry {env next : Surroundings}
    (f : OutputId → DeskOutput → DeskOutput) (hf : ∀ id output, (f id output).work = output.work)
    (h : next.outputs = env.outputs.map fun e => (e.1, f e.1 e.2)) :
    next.workRecessForOutput = env.workRecessForOutput := by
  funext id
  unfold Surroundings.workRecessForOutput
  rw [h, getKey_mapEntry]
  cases getKey id env.outputs with
  | none => rfl
  | some output => exact hf id output

theorem outputByName_mapEntry {env next : Surroundings}
    (f : OutputId → DeskOutput → DeskOutput) (hf : ∀ id output, (f id output).name = output.name)
    (h : next.outputs = env.outputs.map fun e => (e.1, f e.1 e.2)) :
    next.outputByName = env.outputByName := by
  funext name
  unfold Surroundings.outputByName
  rw [h, find?_map, Option.map_map]
  have hn : ((fun e : OutputId × DeskOutput => decide (e.2.name = name)) ∘
      fun e => (e.1, f e.1 e.2)) =
      fun e : OutputId × DeskOutput => decide (e.2.name = name) :=
    funext fun e => by simp [hf]
  rw [hn]
  rfl

/-- The workspaces that outputs show do not count for panes. -/
theorem sameModes_restoreOutputWorkspaces (desk : Desk) (saved : List (String × WorkspaceId)) :
    SameModes desk (desk.restoreOutputWorkspaces saved) := by
  have ho : (desk.restoreOutputWorkspaces saved).around.outputs =
      desk.around.outputs.map fun e => (e.1, (saved.lookup e.2.name).elim e.2
        fun workspace => { e.2 with activeWorkspace := workspace }) := by
    refine map_congr_left fun e _ => ?_
    cases saved.lookup e.2.name <;> rfl
  refine ⟨rfl, ?_, ?_⟩
  · refine workRecessForOutput_mapEntry (fun _ output => (saved.lookup output.name).elim output
      fun workspace => { output with activeWorkspace := workspace }) (fun _ output => ?_) ho
    cases saved.lookup output.name <;> rfl
  · refine outputByName_mapEntry (fun _ output => (saved.lookup output.name).elim output
      fun workspace => { output with activeWorkspace := workspace }) (fun _ output => ?_) ho
    cases saved.lookup output.name <;> rfl

theorem Reflowing.of_sameModes (h : base.Orderly) (hw : desk.windows = base.windows)
    (hs : SameModes base desk) (hd : desk.displacedSplitWindows = base.displacedSplitWindows) :
    Reflowing base desk := by
  refine ⟨(orderly_congr hw).mpr h, hs, fun hb => hb.of_subset hs ?_⟩
  rw [hd]
  exact fun _ he => .inl he

theorem Orderly.restoreOutputTopology {snap : OutputTopologySnapshot} (h : desk.Orderly)
    (hd : desk.DisplacedUncovered)
    (hs : ∀ saved ∈ snap.windows, saved.split.isSome → desk.Uncovered saved.id) :
    (desk.restoreOutputTopology snap).Orderly := by
  have hsa := sameModes_restoreOutputWorkspaces desk snap.outputWorkspaces
  unfold Desk.restoreOutputTopology
  dsimp only
  split
  next primary focused _ _ =>
    generalize hws : ((getKey focused
      (desk.restoreOutputWorkspaces snap.outputWorkspaces).around.outputs).map
        DeskOutput.activeWorkspace).getD
      (desk.restoreOutputWorkspaces snap.outputWorkspaces).around.activeWorkspace = workspace
    have hst : Reflowing desk
        { desk.restoreOutputWorkspaces snap.outputWorkspaces with
          around := { (desk.restoreOutputWorkspaces snap.outputWorkspaces).around with
            primaryOutput := primary, focusedOutput := focused, activeWorkspace := workspace } } :=
      .of_sameModes h rfl (hsa.trans ⟨rfl, rfl, rfl⟩) rfl
    obtain ⟨ha, hen⟩ := hst.rehomeWindows focused workspace hs
    refine (Reflowing.restoreDisplacedSplitWindows ?_ hd).orderly
    refine foldl_invariant (Reflowing desk) (Rehomeable desk)
      (fun _ _ hde he => hde.rehomeOne he) ha fun e he => ?_
    rcases mem_append.mp he with hin | hin
    · exact hen e (mem_filter.mp hin).1
    · exact hen e (mem_filter.mp hin).1
  next => exact ⟨h.nodup, h.exclusive⟩

theorem Orderly.reconcileSplitWorkAreas (h : desk.Orderly) (hd : desk.DisplacedUncovered) :
    desk.reconcileSplitWorkAreas.Orderly := by
  have hs : Reflowing desk { desk with splitWorkAreas := desk.currentWorkAreas } :=
    .of_sameModes h rfl ⟨rfl, rfl, rfl⟩ rfl
  have hr := foldl_invariant (Reflowing desk) (fun _ => True)
    (fun _ e hde _ => hde.reflowOutput e) hs
    (fun e (_ : e ∈ desk.changedWorkAreas) => trivial)
  exact (hr.restoreDisplacedSplitWindows hd).orderly

end Desk

end FocalDesk.Window
