import FocalDesk.Session.Deferred

/-! HDR across a sleep: what the rollback takes away and the resume brings back. -/
namespace FocalDesk.Session
open Library List DesktopState

section

variable {outputs : Outputs} {id : OutputId} {out output' : OutputState}
  {f : OutputId → OutputState → OutputState}

theorem Outputs.eq_of_mem (h : (id, out) ∈ outputs.1) (h' : (id, output') ∈ outputs.1) :
    out = output' := by
  have hp := inj_on_of_nodup_map outputs.2 h h' rfl
  exact congrArg Prod.snd hp

theorem Outputs.mem_map :
    (id, out) ∈ (outputs.map f).1 ↔ ∃ pre, (id, pre) ∈ outputs.1 ∧ f id pre = out := by
  simp only [Outputs.map, List.mem_map]
  constructor
  · rintro ⟨⟨id', pre⟩, hm, heq⟩
    cases heq
    exact ⟨pre, hm, rfl⟩
  · rintro ⟨pre, hm, rfl⟩
    exact ⟨(id, pre), hm, rfl⟩

end

/-- What happens between two resumes: sleep requests, scanout and the clock. -/
inductive CycleEvent where
  | advance (nanoseconds : ℕ)
  | request (action : PowerIpcRequest) (context : PowerContext)
      (interaction : PowerActionInteraction)
  | staged (id : OutputId) (target : Bool)
  | vblank (id : OutputId)
  | stalled (id : OutputId)
  | processHdrSafeSessionAction
  | handleSessionResume
deriving DecidableEq

/-- `wanted` holds the outputs that were to show HDR before the first sleep request since the
last resume, once there was one. -/
structure SleepCycle where
  desktop : DesktopState
  now : ℕ
  wanted : Option (List OutputId)
deriving DecidableEq

namespace SleepCycle

def start (outputs : Outputs) : SleepCycle := { desktop := .new outputs, now := 0, wanted := none }

variable (cycle : SleepCycle)

/-- The HDR-capable outputs with HDR requested. -/
def requested : List OutputId :=
  cycle.desktop.outputs.1.filterMap fun entry =>
    if entry.2.hdrSupported && entry.2.hdrRequested then some entry.1 else none

def onOutput (id : OutputId) (event : OutputEvent) : SleepCycle :=
  { cycle with desktop := cycle.desktop.mapOutput id (OutputEvent.apply · event) }

def step (cycle : SleepCycle) : CycleEvent → Option SleepCycle
  | .advance nanoseconds => some { cycle with now := cycle.now + nanoseconds }
  | .request action context interaction =>
    if action.sleeps = true then
      some { cycle with
        desktop := cycle.desktop.requestHdrSafePowerAction action context interaction cycle.now
        wanted := some (cycle.wanted.getD cycle.requested) }
    else none
  | .staged id target => some (cycle.onOutput id (.staged target))
  | .vblank id => some (cycle.onOutput id .vblank)
  | .stalled id => some (cycle.onOutput id .stalled)
  | .processHdrSafeSessionAction => some { cycle with
      desktop := cycle.desktop.processHdrSafeSessionAction cycle.now }
  | .handleSessionResume => some { cycle with
      desktop := cycle.desktop.handleSessionResume, wanted := none }

/-- An output has HDR requested. -/
def Shows (desktop : DesktopState) (id : OutputId) : Prop :=
  ∀ output, (id, output) ∈ desktop.outputs.1 → output.hdrRequested = true

instance (desktop : DesktopState) (id : OutputId) : Decidable (Shows desktop id) :=
  decidable_of_iff (∀ entry ∈ desktop.outputs.1, entry.1 = id → entry.2.hdrRequested = true)
    ⟨fun h output hmem => h (id, output) hmem rfl, by
      rintro h ⟨_, output⟩ hmem rfl
      exact h output hmem⟩

/-- A resume gives HDR back to the outputs that had it, and a power action is carried out when
no output is in HDR or on its way, or when it has waited for long enough. -/
structure KeepsHdr (cycle : SleepCycle) (event : CycleEvent) : Prop where
  restored : event = .handleSessionResume → ∀ next, cycle.step event = some next →
    ∀ ids, cycle.wanted = some ids → ∀ id ∈ ids, Shows next.desktop id
  executed : ∀ next, cycle.step event = some next → ∀ action context interaction,
    Effect.powerServiceCommand action context interaction ∈
      next.desktop.effects.drop cycle.desktop.effects.length →
    cycle.desktop.transitionPending = false ∨ cycle.desktop.pendingTimedOut cycle.now = true

/-- A request that takes HDR away finds it requested on every output that is to have it back,
and no resume finds a request waiting. -/
def Undisturbed (cycle : SleepCycle) : CycleEvent → Prop
  | .request .. => cycle.desktop.hdrRollbackNeeded = true →
      ∀ id ∈ cycle.wanted.getD [], Shows cycle.desktop id
  | .handleSessionResume => cycle.desktop.pendingHdrSafeAction = none
  | _ => True

instance (cycle : SleepCycle) : (event : CycleEvent) → Decidable (Undisturbed cycle event)
  | .request .. => inferInstanceAs (Decidable (_ → _))
  | .handleSessionResume => inferInstanceAs (Decidable (_ = _))
  | .advance _ | .staged .. | .vblank _ | .stalled _ | .processHdrSafeSessionAction =>
    isTrue trivial

/-- The outputs that a resume will give HDR back to, now or after the waiting action. -/
def toRestore (desktop : DesktopState) : List OutputId :=
  match desktop.pendingHdrSafeAction with
  | some (.power _ _ _ restoreAfterResume) => restoreAfterResume
  | _ => desktop.hdrOutputsToRestoreAfterResume

/-- Every output that is to have HDR back can show it, and has it requested or will get it. -/
structure Remembered (desktop : DesktopState) (ids : List OutputId) : Prop where
  capable : ∀ id ∈ ids, ∀ output, (id, output) ∈ desktop.outputs.1 → output.hdrSupported = true
  kept : ∀ id ∈ ids, Shows desktop id ∨ id ∈ toRestore desktop

structure Inv (cycle : SleepCycle) : Prop where
  remembered : ∀ ids, cycle.wanted = some ids → Remembered cycle.desktop ids
  power : cycle.desktop.pendingHdrSafeAction ≠ some .logout

variable {cycle} {next : SleepCycle} {ev : CycleEvent} {events : List CycleEvent}
  {s t : DesktopState} {ids : List OutputId}

theorem transitionPending_of_rollback (h : s.hdrRollbackNeeded = false) :
    s.transitionPending = false := by
  simp only [hdrRollbackNeeded, transitionPending, any_eq_false,
    Bool.or_eq_true, decide_eq_true_eq, not_or] at h ⊢
  intro e hm
  obtain ⟨ha, he⟩ := h e hm
  refine ⟨ha, ?_⟩
  rcases ht : e.2.hdrTransitionTarget with _ | tgt
  · simp
  · cases tgt with
    | true => exact absurd ht he
    | false => exact absurd (e.2.leaving ht) ha

/-- Scanout changes neither what an output can show nor what is requested of it. -/
theorem apply_keeps (output : OutputState) (ev : OutputEvent) (h : ev ≠ .failed) :
    (ev.apply output).hdrSupported = output.hdrSupported ∧
      (ev.apply output).hdrRequested = output.hdrRequested := by
  cases ev with
  | staged tgt =>
    unfold OutputEvent.apply
    dsimp only
    by_cases hs : output.hdrTransitionTarget = none ∧
        if tgt then output.hdrRequested && output.hdrSupported else output.hdrKmsApplied
    · rw [dif_pos hs]
      exact ⟨rfl, rfl⟩
    · rw [dif_neg hs]
      exact ⟨rfl, rfl⟩
  | vblank =>
    unfold OutputEvent.apply
    dsimp only
    split
    · exact ⟨rfl, rfl⟩
    · exact ⟨rfl, rfl⟩
  | stalled => exact ⟨rfl, rfl⟩
  | failed => exact absurd rfl h

theorem inv_onOutput (hin : Inv cycle) (id : OutputId) (ev : OutputEvent) (h : ev ≠ .failed)
    : Inv (cycle.onOutput id ev) where
  remembered := by
    intro ids hw
    have hp := hin.remembered ids hw
    refine ⟨fun i hi output hm => ?_, fun i hi => ?_⟩
    · obtain ⟨pre, hm', rfl⟩ := (Outputs.mem_map).mp hm
      have hs := hp.capable i hi pre hm'
      split_ifs
      · exact ((apply_keeps pre ev h).1).trans hs
      · exact hs
    · refine (hp.kept i hi).imp_left fun hsh output hm => ?_
      obtain ⟨pre, hm', rfl⟩ := (Outputs.mem_map).mp hm
      have hr := hsh pre hm'
      split_ifs
      · exact ((apply_keeps pre ev h).2).trans hr
      · exact hr
  power := hin.power

theorem mem_requested {id : OutputId} : id ∈ cycle.requested ↔
    ∃ output, (id, output) ∈ cycle.desktop.outputs.1 ∧ output.hdrSupported ∧
      output.hdrRequested := by
  simp only [requested, mem_filterMap]
  constructor
  · rintro ⟨⟨id', output⟩, hm, hif⟩
    split_ifs at hif with hc
    cases hif
    exact ⟨output, hm, by simpa using hc⟩
  · rintro ⟨output, hm, hs, hr⟩
    exact ⟨(id, output), hm, by simp [hs, hr]⟩

theorem shows_requested {id : OutputId} (hid : id ∈ cycle.requested) : Shows cycle.desktop id := by
  intro output hm
  obtain ⟨output', hm', -, hr⟩ := (mem_requested).mp hid
  rw [Outputs.eq_of_mem hm hm']
  exact hr

/-- The outputs wanted after a request were shown before it: they are the ones from before the
first request, or there was none. -/
theorem remembered_wanted (hi : Inv cycle) :
    Remembered cycle.desktop (cycle.wanted.getD cycle.requested) := by
  rcases hw : cycle.wanted with _ | ids
  · refine ⟨fun id hid output hm => ?_, fun id hid => .inl (shows_requested hid)⟩
    obtain ⟨output', hm', hs, -⟩ := (mem_requested).mp hid
    rw [Outputs.eq_of_mem hm hm']
    exact hs
  · exact hi.remembered ids hw

theorem mem_outputsToRestore {act : PowerIpcRequest} (hs : act.sleeps) {id : OutputId}
    {output : OutputState} (hm : (id, output) ∈ s.outputs.1) (hr : output.hdrRequested)
    : id ∈ s.outputsToRestore act := by
  unfold outputsToRestore
  rw [if_pos hs]
  exact mem_filterMap.mpr ⟨(id, output), hm, by simp [hr]⟩

theorem beforePowerAction_sleep (s : DesktopState) {act : PowerIpcRequest}
    (hs : act.sleeps) : s.beforePowerAction act = s := by
  cases act <;> first | rfl | cases hs

/-- A sleep request takes HDR away and waits, or changes nothing but what was carried out. -/
theorem request_cases (s : DesktopState) {action : PowerIpcRequest}
    (hs : action.sleeps) (ctx : PowerContext)
    (act : PowerActionInteraction) (now : ℕ) :
    (s.hdrRollbackNeeded = false ∧
      s.requestHdrSafePowerAction action ctx act now =
        s.emit (.powerServiceCommand action ctx act)) ∨
    (s.hdrRollbackNeeded ∧
      s.requestHdrSafePowerAction action ctx act now =
        { s with
          pendingHdrSafeAction := some (.power action ctx act (s.outputsToRestore action))
          pendingHdrSafeActionStartedAt := some now }.beginHdrRollback) := by
  unfold requestHdrSafePowerAction
  rw [beforePowerAction_sleep s hs]
  dsimp only
  split_ifs with hn
  · exact .inl ⟨hn, rfl⟩
  · exact .inr ⟨by simpa using hn, rfl⟩

theorem Remembered.request (h : Remembered s ids) {action : PowerIpcRequest}
    (hs : action.sleeps) {ctx : PowerContext}
    {act : PowerActionInteraction} {now : ℕ}
    (hsh : s.hdrRollbackNeeded → ∀ id ∈ ids, Shows s id) :
    Remembered (s.requestHdrSafePowerAction action ctx act now) ids := by
  rcases request_cases s hs ctx act now with ⟨-, ha⟩ | ⟨hn, ha⟩
  · rw [ha]
    exact ⟨h.capable, h.kept⟩
  · rw [ha]
    refine ⟨fun id hid output hm => ?_, fun id hid => ?_⟩
    · obtain ⟨pre, hm', rfl⟩ := (Outputs.mem_map).mp hm
      exact h.capable id hid pre hm'
    · by_cases he : ∃ output, (id, output) ∈ s.outputs.1
      · obtain ⟨output, hm⟩ := he
        exact .inr (mem_outputsToRestore hs hm (hsh hn id hid output hm))
      · left
        intro output hm
        obtain ⟨pre, hm', -⟩ := (Outputs.mem_map).mp hm
        exact absurd ⟨pre, hm'⟩ he

theorem Remembered.process (h : Remembered s ids) (hpo : s.pendingHdrSafeAction ≠ some .logout)
    (now : ℕ) : Remembered (s.processHdrSafeSessionAction now) ids := by
  unfold processHdrSafeSessionAction
  rcases hp : s.pendingHdrSafeAction with _ | pend
  · exact h
  dsimp only
  split_ifs with hw
  · exact h
  cases pend with
  | logout => exact absurd hp hpo
  | power action ctx act restoreAfterResume =>
    refine ⟨h.capable, fun id hid => (h.kept id hid).imp_right fun hr => ?_⟩
    rw [toRestore, hp] at hr
    exact hr

theorem pending_handleSessionResume (s : DesktopState) :
    s.handleSessionResume.pendingHdrSafeAction = s.pendingHdrSafeAction := by
  suffices h : ∀ (restore : List OutputId) (t : DesktopState), (restore.foldl
      (fun desk id => desk.mapOutput id fun output =>
        { output with hdrRequested := output.hdrSupported }) t).pendingHdrSafeAction =
      t.pendingHdrSafeAction from h _ _
  intro restore
  induction restore with
  | nil => exact fun _ => rfl
  | cons id restore ih => exact fun t => ih _

theorem effects_handleSessionResume (s : DesktopState) :
    s.handleSessionResume.effects = s.effects := by
  suffices h : ∀ (restore : List OutputId) (t : DesktopState), (restore.foldl
      (fun desk id => desk.mapOutput id fun output =>
        { output with hdrRequested := output.hdrSupported }) t).effects = t.effects from h _ _
  intro restore
  induction restore with
  | nil => exact fun _ => rfl
  | cons id restore ih => exact fun t => ih _

/-- The outputs after a resume: those on the list have HDR requested again if they can show it. -/
theorem mem_resume {id : OutputId} {output : OutputState}
    (hme : (id, output) ∈ s.handleSessionResume.outputs.1) :
    ∃ pre, (id, pre) ∈ s.outputs.1 ∧
      (id ∈ s.hdrOutputsToRestoreAfterResume → output.hdrRequested = pre.hdrSupported) ∧
      (output.hdrRequested = pre.hdrRequested ∨ output.hdrRequested = pre.hdrSupported) := by
  suffices h : ∀ (restore : List OutputId) (t : DesktopState),
      (id, output) ∈ (restore.foldl (fun desk id => desk.mapOutput id fun output =>
        { output with hdrRequested := output.hdrSupported }) t).outputs.1 →
      ∃ pre, (id, pre) ∈ t.outputs.1 ∧ output.hdrSupported = pre.hdrSupported ∧
        (id ∈ restore → output.hdrRequested = pre.hdrSupported) ∧
        (output.hdrRequested = pre.hdrRequested ∨ output.hdrRequested = pre.hdrSupported) by
    obtain ⟨pre, hp, -, hl, ho⟩ := h _ _ hme
    exact ⟨pre, hp, hl, ho⟩
  intro restore
  induction restore with
  | nil => exact fun t ht => ⟨output, ht, rfl, by simp, .inl rfl⟩
  | cons fst restore ih =>
    intro t ht
    obtain ⟨middle, hm, hsu, hl, ho⟩ := ih _ ht
    obtain ⟨pre, hp, hs⟩ := (Outputs.mem_map).mp hm
    by_cases hf : id = fst
    · rw [if_pos hf] at hs
      subst hs
      have hr : output.hdrRequested = pre.hdrSupported := by
        rcases ho with ho | ho
        · exact ho
        · exact ho
      exact ⟨pre, hp, hsu, fun _ => hr, .inr hr⟩
    · rw [if_neg hf] at hs
      subst hs
      refine ⟨pre, hp, hsu, fun hid => ?_, ho⟩
      rcases mem_cons.mp hid with hid | hid
      · exact absurd hid hf
      · exact hl hid

theorem Remembered.resume (h : Remembered s ids) (hi : s.pendingHdrSafeAction = none) :
    ∀ id ∈ ids, Shows s.handleSessionResume id := by
  intro id hid output hm
  obtain ⟨pre, hp, hl, ho⟩ := mem_resume hm
  have hs := h.capable id hid pre hp
  rcases h.kept id hid with hsh | hr
  · rcases ho with ho | ho
    · exact ho.trans (hsh pre hp)
    · exact ho.trans hs
  · rw [toRestore, hi] at hr
    exact (hl hr).trans hs

theorem inv_step (hs : cycle.step ev = some next) (hok : Undisturbed cycle ev) (hi : Inv cycle)
    : Inv next := by
  cases ev with
  | advance nanoseconds =>
    cases hs
    exact ⟨hi.remembered, hi.power⟩
  | request action ctx act =>
    unfold SleepCycle.step at hs
    dsimp only at hs
    split_ifs at hs with hsl
    cases hs
    refine ⟨?_, ?_⟩
    · intro ids hw
      cases hw
      refine (remembered_wanted hi).request hsl fun hn id hid => ?_
      rcases hw : cycle.wanted with _ | ids
      · rw [hw] at hid
        exact shows_requested hid
      · rw [hw] at hid
        exact hok hn id (by rwa [hw])
    · rcases request_cases cycle.desktop hsl ctx act cycle.now with
        ⟨-, ha⟩ | ⟨-, ha⟩
      · rw [ha]
        exact hi.power
      · rw [ha]
        rintro ⟨⟩
  | staged id tgt =>
    cases hs
    exact inv_onOutput hi id _ (by simp)
  | vblank id =>
    cases hs
    exact inv_onOutput hi id _ (by simp)
  | stalled id =>
    cases hs
    exact inv_onOutput hi id _ (by simp)
  | processHdrSafeSessionAction =>
    cases hs
    refine ⟨fun ids hw => (hi.remembered ids hw).process hi.power cycle.now, ?_⟩
    show (cycle.desktop.processHdrSafeSessionAction cycle.now).pendingHdrSafeAction ≠ some .logout
    unfold processHdrSafeSessionAction
    rcases hp : cycle.desktop.pendingHdrSafeAction with _ | pend
    · exact hi.power
    dsimp only
    split_ifs with hwa
    · exact hi.power
    cases pend with
    | logout => exact absurd hp hi.power
    | power action ctx act restoreAfterResume => rintro ⟨⟩
  | handleSessionResume =>
    cases hs
    refine ⟨by rintro _ ⟨⟩, ?_⟩
    have hil : cycle.desktop.pendingHdrSafeAction = none := hok
    show cycle.desktop.handleSessionResume.pendingHdrSafeAction ≠ some .logout
    rw [pending_handleSessionResume, hil]
    rintro ⟨⟩

theorem keepsHdr (hok : Undisturbed cycle ev) (hi : Inv cycle) : KeepsHdr cycle ev where
  restored := by
    rintro rfl next hs ids hwa
    cases hs
    exact (hi.remembered ids hwa).resume hok
  executed := by
    intro next hs action ctx act hm
    have hq : next.desktop.effects = cycle.desktop.effects → False := by
      intro he
      rw [he, drop_length] at hm
      cases hm
    cases ev with
    | advance nanoseconds =>
      cases hs
      exact (hq rfl).elim
    | request asked reported mode =>
      unfold SleepCycle.step at hs
      dsimp only at hs
      split_ifs at hs with hsl
      cases hs
      rcases request_cases cycle.desktop hsl reported mode cycle.now with
        ⟨hn, -⟩ | ⟨-, ha⟩
      · exact .inl (transitionPending_of_rollback hn)
      · exact (hq ((congrArg effects ha).trans rfl)).elim
    | staged id tgt =>
      cases hs
      exact (hq rfl).elim
    | vblank id =>
      cases hs
      exact (hq rfl).elim
    | stalled id =>
      cases hs
      exact (hq rfl).elim
    | processHdrSafeSessionAction =>
      cases hs
      by_cases hw : cycle.desktop.transitionPending ∧
          cycle.desktop.pendingTimedOut cycle.now = false
      · refine (hq (congrArg effects ?_)).elim
        show cycle.desktop.processHdrSafeSessionAction cycle.now = cycle.desktop
        unfold processHdrSafeSessionAction
        split
        · rfl
        · exact if_pos hw
      · rw [not_and_or] at hw
        exact hw.imp (by simp) (by simp)
    | handleSessionResume =>
      cases hs
      exact (hq (effects_handleSessionResume cycle.desktop)).elim

/-- In a run in which every request that takes HDR away finds it still requested wherever it is
to come back, and no resume finds a request waiting, each resume brings HDR back and each action
has waited for SDR scanout. -/
theorem hdr_survives_sleep (outputs : Outputs) (events : List CycleEvent)
    (hmeets : Meets step Undisturbed (start outputs) events) :
    Meets step KeepsHdr (start outputs) events := by
  have hs : Inv (start outputs) := ⟨by rintro _ ⟨⟩, by rintro ⟨⟩⟩
  generalize start outputs = cycle at hs hmeets ⊢
  induction events generalizing cycle with
  | nil => trivial
  | cons ev events ih =>
    exact ⟨keepsHdr hmeets.1 hs, fun next hn =>
      ih next (inv_step hn hmeets.1 hs) (hmeets.2 next hn)⟩

/-- An output in HDR. -/
def hdrOutput : OutputState where
  hdrSupported := true
  hdrRequested := true
  hdrVerificationPending := false
  hdrEnabled := true
  hdrKmsApplied := true
  hdrTransitionTarget := none
  leaving := by simp

def oneHdrOutput : Outputs := ⟨[(1, hdrOutput)], by decide⟩

def lidAndBattery : List CycleEvent :=
  [.request .suspend ⟨"lid close suspend", 0⟩ .nonInteractive,
    .request .suspend ⟨"low battery suspend", 1⟩ .nonInteractive, .staged 1 false, .vblank 1,
    .processHdrSafeSessionAction]

theorem second_request_loses_hdr :
    ¬ ∀ outputs events, Meets step KeepsHdr (start outputs) events := by
  intro ha
  have he : (run step (start oneHdrOutput) lidAndBattery).any (fun cycle =>
      decide (cycle.wanted = some [1]) && decide (¬Shows cycle.desktop.handleSessionResume 1)) =
      true := by decide
  obtain ⟨cycle, hr, he⟩ := exists_run_of_any he
  simp only [Bool.and_eq_true, decide_eq_true_eq] at he
  have hl := (meets_append (ha oneHdrOutput (lidAndBattery ++ [.handleSessionResume])) hr).2.1
  exact he.2 (hl.restored rfl _ rfl [1] he.1 1 (by simp))

/-- One request in a cycle, and HDR is back after it. -/
def lidAlone : List CycleEvent :=
  [.request .suspend ⟨"lid close suspend", 0⟩ .nonInteractive, .staged 1 false, .vblank 1,
    .processHdrSafeSessionAction, .handleSessionResume]

theorem one_request_keeps_hdr :
    Meets step KeepsHdr (start oneHdrOutput) lidAlone ∧
      ∃ cycle, run step (start oneHdrOutput) lidAlone = some cycle ∧
        decide (Shows cycle.desktop 1) = true := by
  have hc : (checkedRun step Undisturbed (start oneHdrOutput) lidAlone).any (fun cycle =>
      decide (Shows cycle.desktop 1)) = true := by decide
  obtain ⟨hm, he⟩ := exists_run_of_checked hc
  exact ⟨hdr_survives_sleep oneHdrOutput lidAlone hm, he⟩

end SleepCycle

end FocalDesk.Session
