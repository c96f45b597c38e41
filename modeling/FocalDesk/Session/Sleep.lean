import FocalDesk.Session.Frame

/-! A suspend and the lock screen: what a remembered policy request stands for. -/
namespace FocalDesk.Session
open Library UnattendedSuspendState DesktopState

namespace World

variable {world next : World} {event : Event} {events : List Event}

/-- A suspend now would count as the one that a policy has asked for. -/
def remembersSuspend (world : World) : Bool :=
  (UnattendedSuspendState.prepareForSleep world.desktop.unattendedSuspendState world.now).1

/-- A suspend leaves the session locked. -/
def LocksOnSuspend (world : World) (event : Event) : Prop :=
  event = .handleSessionSuspend →
    ∀ next, world.step event = some next → next.desktop.lockScreen.active = true

/-- No suspend finds the session unlocked with a policy request remembered. -/
def NotForgotten (world : World) (event : Event) : Prop :=
  event = .handleSessionSuspend →
    ¬(world.desktop.lockScreen.active = false ∧ world.remembersSuspend = true)

instance (world : World) (event : Event) : Decidable (NotForgotten world event) :=
  inferInstanceAs (Decidable (_ → ¬_))

/-- No unlock is completed with a policy request remembered. -/
def UnlocksForgotten (world : World) (event : Event) : Prop :=
  event = .processLockTimers → world.unlocks = true → world.remembersSuspend = false

instance (world : World) (event : Event) : Decidable (UnlocksForgotten world event) :=
  inferInstanceAs (Decidable (_ → _ → _))

theorem active_handleSessionSuspend (desk : DesktopState) (now : ℕ) :
    (desk.handleSessionSuspend now).lockScreen.active ↔
      ¬(desk.lockScreen.active = false ∧
        (prepareForSleep desk.unattendedSuspendState now).1) := by
  unfold handleSessionSuspend
  cases hp : (prepareForSleep desk.unattendedSuspendState now).1 with
  | false => simp [hp, LockScreenState.lock]
  | true => simp [hp]

theorem locksOnSuspend_iff : LocksOnSuspend world event ↔ NotForgotten world event := by
  constructor
  · intro hl he
    subst he
    have hn := hl rfl _ rfl
    exact (active_handleSessionSuspend world.desktop world.now).mp hn
  · intro hno he next hn
    subst he
    cases hn
    exact (active_handleSessionSuspend world.desktop world.now).mpr (hno rfl)

/-! While no unlock is completed with a request remembered, a remembered request means that the
session is locked. -/

def RememberedLocked (desktop : DesktopState) (now : ℕ) : Prop :=
  (UnattendedSuspendState.prepareForSleep desktop.unattendedSuspendState now).1 = true →
    desktop.lockScreen.active = true

theorem prepareForSleep_mono {st : Option UnattendedSuspendState} {now later : ℕ}
    (hle : now ≤ later)
    (h : (prepareForSleep st later).1) :
    (prepareForSleep st now).1 := by
  rcases st with _ | ⟨at_⟩ | _
  · simp [prepareForSleep] at h
  · have hl : later - at_ ≤ unattendedSuspendPrepareTimeout := by
      by_contra ho
      simp [prepareForSleep, ho] at h
    have hn : now - at_ ≤ unattendedSuspendPrepareTimeout := by omega
    simp [prepareForSleep, hn]
  · rfl

theorem RememberedLocked.congr {s t : DesktopState} {now : ℕ} (h : RememberedLocked s now)
    (hu : t.unattendedSuspendState = s.unattendedSuspendState) (hs : t.lockScreen = s.lockScreen)
    : RememberedLocked t now := by
  unfold RememberedLocked at *
  rw [hu, hs]
  exact h

theorem RememberedLocked.of_same {s t : DesktopState} {now : ℕ} (h : RememberedLocked s now)
    (hs : s.SameSession t) : RememberedLocked t now :=
  h.congr hs.unattended hs.lockScreen

variable {f : LockScreenState → LockScreenState}

theorem RememberedLocked.onLockScreen (h : RememberedLocked world.desktop world.now)
    (hf : ∀ screen, (f screen).active = screen.active) :
    RememberedLocked (world.onLockScreen f).desktop (world.onLockScreen f).now := by
  unfold World.onLockScreen
  split_ifs with ha
  · exact fun _ => (hf world.desktop.lockScreen).trans ha
  · exact h

theorem RememberedLocked.onPassword (h : RememberedLocked world.desktop world.now)
    (hf : ∀ screen, (f screen).active = screen.active) :
    RememberedLocked (world.onPassword f).desktop (world.onPassword f).now := by
  unfold World.onPassword
  split_ifs
  · exact h.onLockScreen hf
  · exact h

theorem RememberedLocked.dispatch {desk : DesktopState} {now : ℕ}
    (h : RememberedLocked desk now) (action : PowerIpcRequest) (ctx : PowerContext)
    (act : PowerActionInteraction) (auth : Option PowerAuthorization) :
    RememberedLocked (desk.dispatchPowerAction action ctx act auth now)
      now := by
  have hp : RememberedLocked (desk.beforeDispatch action act now) now := by
    unfold beforeDispatch
    by_cases hs : action = .suspend
    · rw [if_pos hs]
      exact fun _ => rfl
    · rw [if_neg hs]
      exact h
  rcases same_dispatchPowerAction desk action ctx act auth
      now with hsa | ⟨hac, msg, ha⟩
  · exact hp.congr hsa.unattended hsa.lockScreen
  · rw [ha]
    exact fun _ => hac

theorem RememberedLocked.processLockTimers (h : RememberedLocked world.desktop world.now)
    (hok : world.unlocks → world.remembersSuspend = false) :
    RememberedLocked (world.desktop.processLockTimers world.now) world.now := by
  obtain ⟨screen, hr, hk⟩ := receiveLockResults_eq world.desktop
    world.desktop.lockAuthRx world.now
  rcases processLockTimers_cases world.desktop world.now with
    ⟨-, ha⟩ | ⟨hac, recv, hre, ⟨hd, ha⟩ | ⟨-, ha⟩⟩
  · rw [ha]
    exact h
  · have hun : world.unlocks := by
      rw [hre] at hd
      rw [World.unlocks, hac]
      exact hd
    have hs := same_finishUnlock recv world.now
    have hu : (recv.finishUnlock world.now).unattendedSuspendState =
        world.desktop.unattendedSuspendState := by
      rw [hs.unattended, hre, hr]
    intro hm
    rw [ha, hu] at hm
    rw [remembersSuspend, hm] at hok
    cases hok hun
  · intro _
    rw [ha, hre, hr]
    exact hk.trans hac

theorem rememberedLocked_step (hs : world.step event = some next)
    (hok : UnlocksForgotten world event) (h : RememberedLocked world.desktop world.now) :
    RememberedLocked next.desktop next.now := by
  cases event with
  | advance nanoseconds =>
    cases hs
    exact fun hl => h (prepareForSleep_mono (Nat.le_add_right _ _) hl)
  | lockSession =>
    cases hs
    exact fun _ => rfl
  | dispatchPowerAction action text act auth =>
    cases hs
    exact h.dispatch action _ act auth
  | requestHdrSafeLogout =>
    cases hs
    exact h.of_same (same_requestHdrSafeLogout world.desktop world.now)
  | handleSessionSuspend =>
    cases hs
    intro _
    refine (active_handleSessionSuspend world.desktop world.now).mpr ?_
    rintro ⟨hu, hm⟩
    rw [h hm] at hu
    cases hu
  | handleSessionResume =>
    cases hs
    refine RememberedLocked.of_same ?_ (same_handleSessionResume world.desktop)
    intro hm
    cases hm
  | pushChar ch =>
    cases hs
    exact h.onPassword fun _ => rfl
  | backspace =>
    cases hs
    exact h.onPassword fun _ => rfl
  | escape =>
    cases hs
    exact h.onPassword fun _ => rfl
  | togglePasswordVisibility =>
    cases hs
    exact h.onLockScreen fun _ => rfl
  | submitLockPassword spn =>
    cases hs
    unfold World.submit RememberedLocked
    rcases submitLockPassword_cases world.desktop spn world.now with
      ⟨screen, ha, hk, -, -⟩ | ⟨screen, ha, -, hac, -, -⟩
    · simp only [ha, hk]
      exact h
    · simp only [ha]
      exact fun _ => hac
  | workerReturns i authenticated =>
    obtain ⟨wk, -, rfl⟩ := Option.map_eq_some_iff.mp hs
    exact h
  | processLockTimers =>
    cases hs
    exact h.processLockTimers (hok rfl)
  | processHdrSafeSessionAction =>
    cases hs
    exact h.of_same (same_processHdrSafeSessionAction world.desktop world.now)
  | output id outputEvent =>
    cases hs
    exact h.of_same (same_mapOutput world.desktop id (OutputEvent.apply · outputEvent))

theorem notForgotten_of_unlocksForgotten (hm : Meets step UnlocksForgotten world events)
    (h : RememberedLocked world.desktop world.now) : Meets step NotForgotten world events := by
  induction events generalizing world with
  | nil => trivial
  | cons event events ih =>
    refine ⟨?_, fun next hn => ih (hm.2 next hn) (rememberedLocked_step hn hm.1 h)⟩
    rintro - ⟨hu, hme⟩
    rw [h hme] at hu
    cases hu

/-- The machine sleeps locked exactly in the runs in which no suspend finds it unlocked with a
policy request remembered; it does so when no unlock is completed while one is. -/
theorem sleeps_locked_iff (outputs : Outputs) (events : List Event) :
    (Meets step LocksOnSuspend (start outputs) events ↔
      Meets step NotForgotten (start outputs) events) ∧
    (Meets step UnlocksForgotten (start outputs) events →
      Meets step LocksOnSuspend (start outputs) events) := by
  have hi : Meets step LocksOnSuspend (start outputs) events ↔
      Meets step NotForgotten (start outputs) events :=
    ⟨.mono fun _ _ => (locksOnSuspend_iff).mp, .mono fun _ _ => (locksOnSuspend_iff).mpr⟩
  refine ⟨hi, fun hm => hi.mpr (notForgotten_of_unlocksForgotten hm ?_)⟩
  intro hr
  cases hr

/-- A lid closes, the password is typed within half a minute, and then the machine is put to
sleep by another program. -/
def forgottenSuspend : List Event :=
  [.dispatchPowerAction .suspend "lid close suspend" .nonInteractive none, .pushChar 'a',
    .submitLockPassword true, .workerReturns 0 true, .processLockTimers,
    .advance lockPulseDuration, .processLockTimers, .handleSessionSuspend]

theorem forgotten_sleeps_unlocked :
    ¬ ∀ outputs events, Meets step LocksOnSuspend (start outputs) events := by
  intro ha
  have hn := (ha ⟨[], .nil⟩ forgottenSuspend).mono fun _ _ => (locksOnSuspend_iff).mp
  revert hn
  decide

end World

end FocalDesk.Session
