import FocalDesk.Session.Frame

/-! Power requests that wait, for the password or for SDR scanout, and the ones after them. -/
namespace FocalDesk.Session
open Library List Option

namespace DesktopState

variable {s t u : DesktopState} {p q : PowerContext → Prop}

/-- Only power requests with the property are carried out on the way. -/
def Executes (p : PowerContext → Prop) (s t : DesktopState) : Prop :=
  ∃ new, t.effects = s.effects ++ new ∧
    ∀ action context interaction,
      Effect.powerServiceCommand action context interaction ∈ new → p context

theorem Executes.of_eq (h : t.effects = s.effects) : Executes p s t :=
  ⟨[], by simpa using h, by simp⟩

theorem Executes.mono (h : Executes p s t) (hpq : ∀ ctx, p ctx → q ctx) :
    Executes q s t := by
  obtain ⟨new, he, hn⟩ := h
  exact ⟨new, he, fun action ctx interaction hm =>
    hpq ctx (hn action ctx interaction hm)⟩

theorem Executes.trans (h : Executes p s t) (h' : Executes p t u) : Executes p s u := by
  obtain ⟨new, he, hn⟩ := h
  obtain ⟨new', he', hn'⟩ := h'
  refine ⟨new ++ new', by rw [he', he, append_assoc], ?_⟩
  intro action ctx interaction hm
  rcases mem_append.mp hm with hm | hm
  · exact hn action ctx interaction hm
  · exact hn' action ctx interaction hm

theorem executes_emit {eff : Effect} (h : ∀ action ctx interaction,
    eff = .powerServiceCommand action ctx interaction → p ctx) :
    Executes p s (s.emit eff) := by
  refine ⟨[eff], rfl, ?_⟩
  intro action ctx interaction hm
  exact h action ctx interaction (mem_singleton.mp hm).symm

theorem executes_emit_other {e : Effect}
    (h : ∀ action ctx interaction, e ≠ .powerServiceCommand action ctx interaction) :
    Executes p s (s.emit e) :=
  executes_emit fun action ctx interaction heq => absurd heq (h action ctx interaction)

variable (s : DesktopState)

theorem executes_beforePowerAction (action : PowerIpcRequest) :
    Executes p s (s.beforePowerAction action) := by
  unfold beforePowerAction
  by_cases hc : action = .reboot ∨ action = .powerOff
  · simp only [if_pos hc]
    have hf : Executes p s (s.emit (.checkpointSession true)) := executes_emit_other (by simp)
    split_ifs
    · exact hf.trans (executes_emit_other (by simp))
    · exact hf
  · simp only [if_neg hc]
    split_ifs
    · exact executes_emit_other (by simp)
    · exact .of_eq rfl

theorem beforePowerAction_keeps (action : PowerIpcRequest) :
    (s.beforePowerAction action).outputs = s.outputs ∧
      (s.beforePowerAction action).pendingHdrSafeAction = s.pendingHdrSafeAction := by
  unfold beforePowerAction
  by_cases hc : action = .reboot ∨ action = .powerOff
  · simp only [if_pos hc]
    split_ifs
    · exact ⟨rfl, rfl⟩
    · exact ⟨rfl, rfl⟩
  · simp only [if_neg hc]
    split_ifs
    · exact ⟨rfl, rfl⟩
    · exact ⟨rfl, rfl⟩

/-- A request is carried out at once when no output has to leave HDR, and otherwise takes the
place of the one that waits for that. -/
theorem requestHdrSafePowerAction_pending (action : PowerIpcRequest) (ctx : PowerContext)
    (interaction : PowerActionInteraction) (now : ℕ) :
    (s.hdrRollbackNeeded = false ∧
      (s.requestHdrSafePowerAction action ctx interaction now).pendingHdrSafeAction =
        s.pendingHdrSafeAction) ∨
    (s.hdrRollbackNeeded ∧ ∃ restore,
      (s.requestHdrSafePowerAction action ctx interaction now).pendingHdrSafeAction =
        some (.power action ctx interaction restore)) := by
  obtain ⟨ho, hp⟩ := beforePowerAction_keeps s action
  have hr : (s.beforePowerAction action).hdrRollbackNeeded = s.hdrRollbackNeeded := by
    unfold hdrRollbackNeeded
    rw [ho]
  unfold requestHdrSafePowerAction
  dsimp only
  split_ifs with hn
  · exact .inl ⟨hr.symm.trans hn, hp⟩
  · refine .inr ⟨?_, _, rfl⟩
    rw [← hr]
    simpa using hn

theorem executes_requestHdrSafePowerAction (action : PowerIpcRequest) (ctx : PowerContext)
    (interaction : PowerActionInteraction) (now : ℕ) :
    Executes (· = ctx) s (s.requestHdrSafePowerAction action ctx interaction now) := by
  have hp : Executes (· = ctx) s (s.beforePowerAction action) := executes_beforePowerAction s action
  unfold requestHdrSafePowerAction
  dsimp only
  split_ifs with hn
  · refine hp.trans (executes_emit ?_)
    rintro action' context' interaction' heq
    cases heq
    rfl
  · exact hp.trans (.of_eq rfl)

end DesktopState

namespace World

variable {world next : World} {event : Event} {events : List Event}

/-- Of the requests, the one that was made last. -/
def IsLast (requests : ℕ) (context : PowerContext) : Prop := context.number + 1 = requests

instance (requests : ℕ) (context : PowerContext) : Decidable (IsLast requests context) :=
  inferInstanceAs (Decidable (_ = _))

/-- What waits is the last request. -/
structure Fresh (desktop : DesktopState) (requests : ℕ) : Prop where
  deferred : ∀ action context, desktop.deferredPowerAction = some (action, context) →
    IsLast requests context
  pending : ∀ action context interaction restore,
    desktop.pendingHdrSafeAction = some (.power action context interaction restore) →
      IsLast requests context

/-- An unlock carries out the last request, and so does every other step that carries one out. -/
structure NeverStale (world : World) (event : Event) : Prop where
  onUnlock : event = .processLockTimers → world.unlocks = true → ∀ action context,
    world.desktop.deferredPowerAction = some (action, context) → IsLast world.requests context
  executed : ∀ next, world.step event = some next → ∀ action context interaction,
    Effect.powerServiceCommand action context interaction ∈
      next.desktop.effects.drop world.desktop.effects.length → IsLast next.requests context

/-- A power request waits for SDR scanout. -/
def powerPending (world : World) : Bool :=
  match world.desktop.pendingHdrSafeAction with
  | some (.power ..) => true
  | _ => false

/-- A request that is made while another one waits takes the place of that one: of one that
waits for the password by asking for it too, of one that waits for SDR scanout by waiting for
that itself. -/
def Replaces (world : World) : Event → Prop
  | .dispatchPowerAction action _ interaction authorization =>
    (world.desktop.deferredPowerAction = none ∨ action.prompts interaction = true) ∧
      (world.powerPending = false ∨
        sessionPowerCommand action ≠ none ∧ world.desktop.hdrRollbackNeeded = true ∧
          (action.prompts interaction = true → world.desktop.refuses authorization = false))
  | _ => True

instance (world : World) : (event : Event) → Decidable (Replaces world event)
  | .dispatchPowerAction .. => inferInstanceAs (Decidable (_ ∧ _))
  | .advance _ | .lockSession | .requestHdrSafeLogout | .handleSessionSuspend
  | .handleSessionResume | .pushChar _ | .backspace | .escape
  | .togglePasswordVisibility | .submitLockPassword _ | .workerReturns .. | .processLockTimers
  | .processHdrSafeSessionAction | .output .. => isTrue trivial

section

open DesktopState

variable {s t : DesktopState} {n : ℕ}

/-- From one state to the next only the last request is carried out, and what waits is it. -/
structure Current (n : ℕ) (s t : DesktopState) : Prop where
  fresh : Fresh t n
  executes : Executes (IsLast n) s t

theorem Fresh.congr (h : Fresh s n) (hd : t.deferredPowerAction = s.deferredPowerAction)
    (hp : t.pendingHdrSafeAction = s.pendingHdrSafeAction) : Fresh t n where
  deferred := by
    rw [hd]
    exact h.deferred
  pending := by
    rw [hp]
    exact h.pending

theorem Fresh.current (h : Fresh s n) (hd : t.deferredPowerAction = s.deferredPowerAction)
    (hp : t.pendingHdrSafeAction = s.pendingHdrSafeAction) (he : t.effects = s.effects) :
    Current n s t := ⟨h.congr hd hp, .of_eq he⟩

theorem fresh_lockSession (h : Fresh s n) : Current n s s.lockSession :=
  ⟨h.congr rfl rfl, executes_emit_other (by simp)⟩

/-- The last request is carried out or waits for SDR scanout. -/
theorem current_request (h : Fresh s n) (action : PowerIpcRequest) {ctx : PowerContext}
    (hl : IsLast n ctx) (interaction : PowerActionInteraction) (now : ℕ) :
    Current n s (s.requestHdrSafePowerAction action ctx interaction now) where
  fresh := by
    have hs := same_requestHdrSafePowerAction s action ctx interaction now
    refine ⟨fun action' context' hd => ?_, fun _ _ _ _ hp => ?_⟩
    · exact h.deferred action' context' (hs.deferred.symm.trans hd)
    · rcases requestHdrSafePowerAction_pending s action ctx interaction now with
        ⟨-, hk⟩ | ⟨-, restore, hse⟩
      · exact h.pending _ _ _ _ (hk.symm.trans hp)
      · rw [hse] at hp
        cases hp
        exact hl
  executes := (executes_requestHdrSafePowerAction s action ctx interaction now).mono
    fun _ heq => heq ▸ hl

theorem current_finishUnlock (h : Fresh s n) (now : ℕ) : Current n s (s.finishUnlock now) := by
  unfold finishUnlock
  dsimp only
  rcases hd : s.deferredPowerAction with _ | ⟨action, ctx⟩
  · exact h.current hd.symm rfl rfl
  · have hw : Fresh { s with lockScreen := s.lockScreen.unlock, deferredPowerAction := none }
        n := ⟨by rintro _ _ ⟨⟩, h.pending⟩
    have hdo := current_request hw action (h.deferred action ctx hd) .interactive now
    exact ⟨hdo.fresh, hdo.executes⟩

theorem current_processLockTimers (h : Fresh s n) (now : ℕ) :
    Current n s (s.processLockTimers now) := by
  obtain ⟨screen, hr, -⟩ := receiveLockResults_eq s s.lockAuthRx now
  have hre : Fresh { s.receiveLockResults s.lockAuthRx now with lockAuthRx := [] } n := by
    rw [hr]
    exact h.congr rfl rfl
  have he : Executes (IsLast n) s
      { s.receiveLockResults s.lockAuthRx now with lockAuthRx := [] } := by
    rw [hr]
    exact .of_eq rfl
  rcases processLockTimers_cases s now with
    ⟨-, ha⟩ | ⟨-, recv, rfl, ⟨-, ha⟩ | ⟨-, ha⟩⟩
  · rw [ha]
    exact h.current rfl rfl rfl
  · have hd := current_finishUnlock hre now
    rw [ha]
    exact ⟨hd.fresh, he.trans hd.executes⟩
  · rw [ha]
    exact ⟨hre, he⟩

theorem current_processHdrSafeSessionAction (h : Fresh s n) (now : ℕ) :
    Current n s (s.processHdrSafeSessionAction now) := by
  unfold processHdrSafeSessionAction
  rcases hp : s.pendingHdrSafeAction with _ | pend
  · exact h.current rfl rfl rfl
  dsimp only
  split_ifs with hw
  · exact h.current rfl rfl rfl
  cases pend with
  | logout => exact ⟨⟨h.deferred, fun _ _ _ _ hn => by cases hn⟩, .of_eq rfl⟩
  | power action ctx interaction restoreAfterResume =>
    refine ⟨⟨h.deferred, fun _ _ _ _ hn => by cases hn⟩, ?_⟩
    refine Executes.trans (.of_eq rfl) (executes_emit ?_)
    rintro action' context' interaction' heq
    cases heq
    exact h.pending action ctx interaction restoreAfterResume hp

theorem current_requestHdrSafeLogout (h : Fresh s n) (now : ℕ) :
    Current n s (s.requestHdrSafeLogout now) := by
  have hp : Executes (IsLast n) s
      ((s.emit (.checkpointSession true)).emit .rearmExclusiveHdrForNextSession) :=
    Executes.trans (executes_emit_other (by simp)) (executes_emit_other (by simp))
  unfold requestHdrSafeLogout
  dsimp only
  split_ifs with hne
  · exact ⟨h.congr rfl rfl, hp.trans (.of_eq rfl)⟩
  · exact ⟨⟨h.deferred, fun _ _ _ _ hn => by cases hn⟩, hp.trans (.of_eq rfl)⟩

theorem current_handleSessionResume (h : Fresh s n) : Current n s s.handleSessionResume := by
  suffices hf : ∀ (ids : List OutputId) (t : DesktopState), Current n s t →
      Current n s (ids.foldl (fun desk id => desk.mapOutput id fun out =>
        { out with hdrRequested := out.hdrSupported }) t) from
    hf _ _ (h.current rfl rfl rfl)
  intro ids
  induction ids with
  | nil => exact fun t ht => ht
  | cons id ids ih =>
    exact fun t ht => ih _ ⟨ht.fresh.congr rfl rfl, ht.executes.trans (.of_eq rfl)⟩

theorem current_handleSessionSuspend (h : Fresh s n) (now : ℕ) :
    Current n s (s.handleSessionSuspend now) := by
  unfold handleSessionSuspend
  dsimp only
  split_ifs with hp
  · exact ⟨h.congr rfl rfl, (fresh_lockSession (s := { s with unattendedSuspendState := _ })
      (h.congr rfl rfl)).executes⟩
  · exact h.current rfl rfl rfl

end

theorem powerPending_eq_false (h : world.powerPending = false) (action : PowerIpcRequest)
    (ctx : PowerContext) (interaction : PowerActionInteraction) (restore : List OutputId) :
    world.desktop.pendingHdrSafeAction ≠ some (.power action ctx interaction restore) := by
  intro hp
  rw [powerPending, hp] at h
  cases h

open DesktopState in
/-- The request that replaces what waits for SDR scanout, or finds nothing waiting. -/
theorem current_newRequest {s : DesktopState} {n : ℕ}
    (hd : s.deferredPowerAction = none)
    (hp : (∀ action ctx interaction restore,
        s.pendingHdrSafeAction ≠ some (.power action ctx interaction restore)) ∨
      s.hdrRollbackNeeded)
    (action : PowerIpcRequest) (text : String) (interaction : PowerActionInteraction) (now : ℕ) :
    Current (n + 1) s (s.requestHdrSafePowerAction action ⟨text, n⟩ interaction now) where
  fresh := by
    have hs := same_requestHdrSafePowerAction s action ⟨text, n⟩ interaction now
    constructor
    · intro action' context' hw
      rw [hs.deferred, hd] at hw
      cases hw
    · intro action' context' interaction' restore' hw
      rcases requestHdrSafePowerAction_pending s action ⟨text, n⟩ interaction now with
        ⟨hno, hk⟩ | ⟨-, restore, hse⟩
      · rcases hp with hp | hn
        · exact absurd (hk.symm.trans hw) (hp _ _ _ _)
        · rw [hn] at hno
          cases hno
      · rw [hse] at hw
        cases hw
        rfl
  executes := (executes_requestHdrSafePowerAction s action ⟨text, n⟩ interaction now).mono
    fun _ heq => heq ▸ rfl

theorem executes_beforeDispatch (s : DesktopState) (action : PowerIpcRequest)
    (interaction : PowerActionInteraction) (now : ℕ) (p : PowerContext → Prop) :
    DesktopState.Executes p s (s.beforeDispatch action interaction now) := by
  unfold DesktopState.beforeDispatch
  by_cases hs : action = .suspend
  · rw [if_pos hs]
    exact DesktopState.executes_emit_other (e := .lockSession) (by simp)
  · rw [if_neg hs]
    exact .of_eq rfl

theorem beforeDispatch_keeps (s : DesktopState) (action : PowerIpcRequest)
    (interaction : PowerActionInteraction) (now : ℕ) :
    (s.beforeDispatch action interaction now).deferredPowerAction = s.deferredPowerAction ∧
      (s.beforeDispatch action interaction now).pendingHdrSafeAction = s.pendingHdrSafeAction ∧
      (s.beforeDispatch action interaction now).hdrRollbackNeeded = s.hdrRollbackNeeded := by
  unfold DesktopState.beforeDispatch
  by_cases hs : action = .suspend
  · rw [if_pos hs]
    exact ⟨rfl, rfl, rfl⟩
  · rw [if_neg hs]
    exact ⟨rfl, rfl, rfl⟩

variable {action : PowerIpcRequest} {act : PowerActionInteraction}

theorem command_of_prompts (h : action.prompts act) : sessionPowerCommand action ≠ none := by
  cases action <;> simp_all [PowerIpcRequest.prompts, sessionPowerCommand]

variable {auth : Option PowerAuthorization}

theorem current_dispatch {text : String}
    (hok : Replaces world (.dispatchPowerAction action text act auth)) :
    Current (world.requests + 1) world.desktop (world.dispatch action text act auth).desktop := by
  obtain ⟨hde, hpe⟩ := hok
  show Current (world.requests + 1) world.desktop (world.desktop.dispatchPowerAction action
    ⟨text, world.requests⟩ act auth world.now)
  rcases DesktopState.dispatchPowerAction_cases world.desktop action ⟨text, world.requests⟩
      act auth world.now with
    ⟨hc, ha⟩ | ⟨-, hp, ha⟩ | ⟨hp, hr, cmd, ha⟩ |
    ⟨hp, hr, ha⟩
  · -- A request without a session command leaves both slots as they are.
    have hn : world.desktop.deferredPowerAction = none := by
      rcases hde with hn | hp
      · exact hn
      · exact absurd hc (command_of_prompts hp)
    have hi : world.powerPending = false := by
      rcases hpe with hi | ⟨hs, -, -⟩
      · exact hi
      · exact absurd hc hs
    rw [ha]
    refine ⟨⟨?_, ?_⟩, DesktopState.executes_emit ?_⟩
    · intro action' context' hw
      exact absurd (hn.symm.trans hw) (by simp)
    · intro action' context' interaction' restore' hw
      exact absurd hw (powerPending_eq_false hi _ _ _ _)
    · rintro action' context' interaction' heq
      cases heq
      rfl
  · obtain ⟨hk, hkp, hkr⟩ :=
      beforeDispatch_keeps world.desktop action act world.now
    have hn : world.desktop.deferredPowerAction = none := by
      rcases hde with hn | has
      · exact hn
      · rw [hp] at has
        cases has
    have hd := current_newRequest (n := world.requests) (hk.trans hn)
      (by
        rcases hpe with hi | ⟨-, hne, -⟩
        · left
          rw [hkp]
          exact powerPending_eq_false hi
        · exact .inr (hkr.trans hne))
      action text .nonInteractive world.now
    rw [ha]
    exact ⟨hd.fresh, (executes_beforeDispatch _ _ _ _ _).trans hd.executes⟩
  · have hi : world.powerPending = false := by
      rcases hpe with hi | ⟨-, -, hg⟩
      · exact hi
      · rw [hg hp] at hr
        cases hr
    rw [ha]
    refine ⟨⟨?_, ?_⟩, .of_eq rfl⟩
    · rintro action' context' hw
      cases hw
      rfl
    · intro action' context' interaction' restore' hw
      exact absurd hw (powerPending_eq_false hi _ _ _ _)
  · have hd := current_newRequest (s := { world.desktop with deferredPowerAction := none })
      (n := world.requests) rfl
      (by
        rcases hpe with hi | ⟨-, hne, -⟩
        · exact .inl (powerPending_eq_false hi)
        · exact .inr hne)
      action text .interactive world.now
    rw [ha]
    exact ⟨hd.fresh, hd.executes⟩

theorem current_step (hs : world.step event = some next) (hok : Replaces world event)
    (h : Fresh world.desktop world.requests) :
    Current next.requests world.desktop next.desktop := by
  have hsc : ∀ f : LockScreenState → LockScreenState,
      Current (world.onLockScreen f).requests world.desktop (world.onLockScreen f).desktop := by
    intro f
    unfold World.onLockScreen
    split_ifs
    · exact h.current rfl rfl rfl
    · exact h.current rfl rfl rfl
  have hp : ∀ f : LockScreenState → LockScreenState,
      Current (world.onPassword f).requests world.desktop (world.onPassword f).desktop := by
    intro f
    unfold World.onPassword
    split_ifs
    · exact hsc f
    · exact h.current rfl rfl rfl
  cases event with
  | advance nanoseconds =>
    cases hs
    exact h.current rfl rfl rfl
  | lockSession =>
    cases hs
    exact fresh_lockSession h
  | dispatchPowerAction action text act auth =>
    cases hs
    exact current_dispatch hok
  | requestHdrSafeLogout =>
    cases hs
    exact current_requestHdrSafeLogout h world.now
  | handleSessionSuspend =>
    cases hs
    exact current_handleSessionSuspend h world.now
  | handleSessionResume =>
    cases hs
    exact current_handleSessionResume h
  | pushChar ch =>
    cases hs
    exact hp _
  | backspace =>
    cases hs
    exact hp _
  | escape =>
    cases hs
    exact hp _
  | togglePasswordVisibility =>
    cases hs
    exact hsc _
  | submitLockPassword spn =>
    cases hs
    show Current world.requests world.desktop (world.desktop.submitLockPassword spn world.now).1
    rcases DesktopState.submitLockPassword_cases world.desktop spn world.now with
      ⟨screen, ha, -⟩ | ⟨screen, ha, -⟩
    · rw [ha]
      exact h.current rfl rfl rfl
    · rw [ha]
      exact ⟨h.congr rfl rfl, DesktopState.executes_emit_other (e := .passwordSubmitted) (by simp)⟩
  | workerReturns i authenticated =>
    obtain ⟨wk, -, rfl⟩ := map_eq_some_iff.mp hs
    exact h.current rfl rfl rfl
  | processLockTimers =>
    cases hs
    exact current_processLockTimers h world.now
  | processHdrSafeSessionAction =>
    cases hs
    exact current_processHdrSafeSessionAction h world.now
  | output id outputEvent =>
    cases hs
    exact h.current rfl rfl rfl

theorem neverStale_of_fresh (hok : Replaces world event) (h : Fresh world.desktop world.requests) :
    NeverStale world event where
  onUnlock := fun _ _ action ctx hd => h.deferred action ctx hd
  executed := by
    intro next hs action ctx act hm
    obtain ⟨new, he, hn⟩ := (current_step hs hok h).executes
    rw [he, drop_left] at hm
    exact hn action ctx act hm

/-- A request that does not replace what waits leaves it waiting behind. -/
theorem replaces_of_fresh {text : String} (h : Fresh world.desktop world.requests)
    (ha : Fresh (world.dispatch action text act auth).desktop (world.requests + 1)) :
    Replaces world (.dispatchPowerAction action text act auth) := by
  have hl : ∀ ctx, IsLast world.requests ctx →
      ¬IsLast (world.requests + 1) ctx := by
    intro ctx hla hl
    unfold IsLast at hla hl
    omega
  have hd : ∀ waiting, world.desktop.deferredPowerAction = some waiting →
      (world.dispatch action text act auth).desktop.deferredPowerAction ≠ some waiting := by
    rintro ⟨waiting, ctx⟩ hw hk
    exact hl ctx (h.deferred _ _ hw) (ha.deferred _ _ hk)
  have hpe : world.powerPending →
      (world.dispatch action text act auth).desktop.pendingHdrSafeAction ≠
        world.desktop.pendingHdrSafeAction := by
    intro hw hk
    unfold powerPending at hw
    split at hw
    · rename_i waiting ctx asked restore hs
      exact hl ctx (h.pending _ _ _ _ hs) (ha.pending _ _ _ _ (hk.trans hs))
    · cases hw
  have hdi : (world.dispatch action text act auth).desktop =
      world.desktop.dispatchPowerAction action ⟨text, world.requests⟩ act auth world.now := rfl
  rw [hdi] at hd hpe
  rcases DesktopState.dispatchPowerAction_cases world.desktop action ⟨text, world.requests⟩
      act auth world.now with
    ⟨hc, hdo⟩ | ⟨hc, hp, hdo⟩ | ⟨hp, hr, cmd, hdo⟩ |
    ⟨hp, hr, hdo⟩
  · rw [hdo] at hd hpe
    refine ⟨.inl ?_, .inl ?_⟩
    · by_contra hne
      obtain ⟨waiting, hw⟩ := ne_none_iff_exists'.mp hne
      exact hd waiting hw hw
    · simpa using fun hw => hpe hw rfl
  · obtain ⟨hkd, hkp, hkr⟩ :=
      beforeDispatch_keeps world.desktop action act world.now
    have hsa := DesktopState.same_requestHdrSafePowerAction
      (world.desktop.beforeDispatch action act world.now) action ⟨text, world.requests⟩
      .nonInteractive world.now
    rw [hdo] at hd hpe
    refine ⟨.inl ?_, ?_⟩
    · by_contra hne
      obtain ⟨waiting, hw⟩ := ne_none_iff_exists'.mp hne
      exact hd waiting hw ((hsa.deferred.trans hkd).trans hw)
    · rcases DesktopState.requestHdrSafePowerAction_pending
          (world.desktop.beforeDispatch action act world.now) action
          ⟨text, world.requests⟩ .nonInteractive world.now with ⟨-, hk⟩ | ⟨hn, -⟩
      · left
        simpa using fun hw => hpe hw (hk.trans hkp)
      · refine .inr ⟨hc, hkr.symm.trans hn, fun has => ?_⟩
        rw [hp] at has
        cases has
  · rw [hdo] at hpe
    refine ⟨.inr hp, .inl ?_⟩
    simpa using fun hw => hpe hw rfl
  · rw [hdo] at hpe
    refine ⟨.inr hp, ?_⟩
    rcases DesktopState.requestHdrSafePowerAction_pending
        { world.desktop with deferredPowerAction := none } action ⟨text, world.requests⟩
        .interactive world.now with ⟨-, hk⟩ | ⟨hn, -⟩
    · left
      simpa using fun hw => hpe hw hk
    · exact .inr ⟨command_of_prompts hp, hn, fun _ => hr⟩

/-- After a step, only the last request waits. -/
def StaysFresh (world : World) (event : Event) : Prop :=
  ∀ next, world.step event = some next → Fresh next.desktop next.requests

theorem staysFresh_iff (h : Fresh world.desktop world.requests) :
    StaysFresh world event ↔ Replaces world event := by
  constructor
  · intro hs
    cases event with
    | dispatchPowerAction action text act auth =>
      exact replaces_of_fresh h (hs _ rfl)
    | _ => trivial
  · exact fun hok next hst => (current_step hst hok h).fresh

/-- In a run in which every new request replaces the one that waits, an unlock carries out the
last request, and no request is carried out after a later one. In the other runs a request waits
on behind a later one. -/
theorem deferred_never_stale (outputs : Outputs) (events : List Event) :
    (Meets step Replaces (start outputs) events → Meets step NeverStale (start outputs) events) ∧
    (Meets step Replaces (start outputs) events ↔
      Meets step StaysFresh (start outputs) events) := by
  have hs : Fresh (start outputs).desktop (start outputs).requests :=
    ⟨by rintro _ _ ⟨⟩, by rintro _ _ _ _ ⟨⟩⟩
  generalize start outputs = world at hs ⊢
  refine ⟨fun hm => ?_, fun hm => ?_, fun hm => ?_⟩
  all_goals induction events generalizing world with
    | nil => trivial
    | cons event events ih => ?_
  · exact ⟨neverStale_of_fresh hm.1 hs, fun next hn =>
      ih next (current_step hn hm.1 hs).fresh (hm.2 next hn)⟩
  · exact ⟨(staysFresh_iff hs).mpr hm.1, fun next hn =>
      ih next (current_step hn hm.1 hs).fresh (hm.2 next hn)⟩
  · exact ⟨(staysFresh_iff hs).mp hm.1, fun next hn =>
      ih next (hm.1 next hn) (hm.2 next hn)⟩

/-- A hibernation waits for the password when the lid is closed, and follows the wake-up. -/
def staleHibernation : List Event :=
  [.lockSession, .dispatchPowerAction .hibernate "system hibernate" .interactive (some .challenge),
    .dispatchPowerAction .suspend "lid close suspend" .nonInteractive none,
    .handleSessionSuspend, .handleSessionResume, .pushChar 'a', .submitLockPassword true,
    .workerReturns 0 true, .processLockTimers, .advance lockPulseDuration]

theorem hibernation_fires_stale :
    ¬ ∀ outputs events, Meets step NeverStale (start outputs) events := by
  intro ha
  have he : (run step (start ⟨[], .nil⟩) staleHibernation).any (fun world =>
      world.unlocks && decide (world.requests = 2) &&
        decide (world.desktop.deferredPowerAction = some (.hibernate, ⟨"system hibernate", 0⟩))) =
      true := by decide
  obtain ⟨world, hru, he⟩ := exists_run_of_any he
  simp only [Bool.and_eq_true, decide_eq_true_eq] at he
  obtain ⟨⟨hu, hr⟩, hw⟩ := he
  have hl := (meets_append (ha ⟨[], .nil⟩ (staleHibernation ++ [.processLockTimers])) hru).2.1
  have hn := hl.onUnlock rfl hu _ _ hw
  rw [hr] at hn
  cases hn

end World

end FocalDesk.Session
