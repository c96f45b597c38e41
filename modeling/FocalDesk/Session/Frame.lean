import FocalDesk.Library.Transition
import FocalDesk.Session.Desktop
import Mathlib.Algebra.Order.Ring.Nat

/-! The desktop among its clock, its PAM threads and the vblanks of its outputs. -/
namespace FocalDesk.Session
open Library

/-- A thread that asks PAM. `lock` is how many times the session had been locked when its
password was submitted. -/
structure Worker where
  generation : UInt64
  password : List Char
  lock : ℕ
deriving DecidableEq

/-- What the backend does to the HDR state of an output. -/
inductive OutputEvent where
  | staged (target : Bool)
  | vblank
  | stalled
  | failed
deriving DecidableEq, Repr

def OutputEvent.apply (output : OutputState) : OutputEvent → OutputState
  | .staged target =>
    if h : output.hdrTransitionTarget = none ∧
        if target then output.hdrRequested && output.hdrSupported else output.hdrKmsApplied then
      { output with
        hdrTransitionTarget := some target
        leaving := by
          rintro ⟨⟩
          exact h.2 }
    else output
  | .vblank =>
    match output.hdrTransitionTarget with
    | none => output
    | some target =>
      { output with
        hdrTransitionTarget := none
        hdrKmsApplied := target
        hdrEnabled := target
        hdrVerificationPending := target && output.hdrVerificationPending
        leaving := by simp }
  | .stalled => { output with hdrTransitionTarget := none, leaving := by simp }
  | .failed =>
    { output with
      hdrRequested := false
      hdrVerificationPending := false
      hdrEnabled := false
      hdrKmsApplied := false
      hdrTransitionTarget := none
      leaving := by simp }

/-- `accepted` holds, for each worker that returned true, the lock its password was for. -/
structure World where
  desktop : DesktopState
  now : ℕ
  workers : List Worker
  accepted : List ℕ
  requests : ℕ
deriving DecidableEq

inductive Event where
  | advance (nanoseconds : ℕ)
  | lockSession
  | dispatchPowerAction (action : PowerIpcRequest) (text : String)
      (interaction : PowerActionInteraction) (authorization : Option PowerAuthorization)
  | requestHdrSafeLogout
  | handleSessionSuspend
  | handleSessionResume
  | pushChar (ch : Char)
  | backspace
  | escape
  | togglePasswordVisibility
  | submitLockPassword (spawned : Bool)
  | workerReturns (index : ℕ) (authenticated : Bool)
  | processLockTimers
  | processHdrSafeSessionAction
  | output (id : OutputId) (event : OutputEvent)
deriving DecidableEq

def DesktopState.locks (desktop : DesktopState) : ℕ := desktop.effects.count .lockSession

namespace World

def start (outputs : Outputs) : World where
  desktop := .new outputs
  now := 0
  workers := []
  accepted := []
  requests := 0

variable (world : World)

def onDesktop (f : DesktopState → DesktopState) : World := { world with desktop := f world.desktop }

def onLockScreen (f : LockScreenState → LockScreenState) : World :=
  if world.desktop.lockScreen.active = true then
    world.onDesktop fun desktop => { desktop with lockScreen := f desktop.lockScreen }
  else world

/-- Keys change the password while no thread is asking PAM. -/
def onPassword (f : LockScreenState → LockScreenState) : World :=
  if world.desktop.lockScreen.authenticating = false then world.onLockScreen f else world

def submit (spawned : Bool) : World :=
  let submitted := world.desktop.submitLockPassword spawned world.now
  { world with
    desktop := submitted.1
    workers := match submitted.2 with
      | none => world.workers
      | some (generation, password) =>
        world.workers ++ [{ generation, password, lock := world.desktop.locks }] }

def dispatch (action : PowerIpcRequest) (text : String) (interaction : PowerActionInteraction)
    (authorization : Option PowerAuthorization) : World :=
  { world.onDesktop fun desktop => desktop.dispatchPowerAction action
      { text, number := world.requests } interaction authorization world.now with
    requests := world.requests + 1 }

def workerReturns (worker : Worker) (index : ℕ) (authenticated : Bool) : World :=
  { world with
    desktop := { world.desktop with
      lockAuthRx := world.desktop.lockAuthRx ++ [(worker.generation, authenticated)] }
    workers := world.workers.eraseIdx index
    accepted := if authenticated then world.accepted ++ [worker.lock] else world.accepted }

def step (world : World) : Event → Option World
  | .advance nanoseconds => some { world with now := world.now + nanoseconds }
  | .lockSession => some (world.onDesktop .lockSession)
  | .dispatchPowerAction action text interaction authorization =>
    some (world.dispatch action text interaction authorization)
  | .requestHdrSafeLogout => some (world.onDesktop (·.requestHdrSafeLogout world.now))
  | .handleSessionSuspend => some (world.onDesktop (·.handleSessionSuspend world.now))
  | .handleSessionResume => some (world.onDesktop .handleSessionResume)
  | .pushChar ch => some (world.onPassword (·.pushChar ch))
  | .backspace => some (world.onPassword .backspace)
  | .escape => some (world.onPassword fun screen =>
      { screen.clearPassword with message := "Enter password" })
  | .togglePasswordVisibility => some (world.onLockScreen .togglePasswordVisibility)
  | .submitLockPassword spawned => some (world.submit spawned)
  | .workerReturns index authenticated =>
    world.workers[index]?.map fun worker => world.workerReturns worker index authenticated
  | .processLockTimers => some (world.onDesktop (·.processLockTimers world.now))
  | .processHdrSafeSessionAction =>
    some (world.onDesktop (·.processHdrSafeSessionAction world.now))
  | .output id event => some (world.onDesktop (·.mapOutput id (OutputEvent.apply · event)))

/-- The lock timers would end the lock now. -/
def unlocks : Bool :=
  world.desktop.lockScreen.active &&
    (world.desktop.receiveLockResults world.desktop.lockAuthRx world.now).unlockDue world.now

end World

end FocalDesk.Session

/-! What the power and HDR functions leave alone, and what each step does to the lock. -/
namespace FocalDesk.Session

/-- The request may ask the user for a password. -/
def PowerIpcRequest.prompts (action : PowerIpcRequest) (interaction : PowerActionInteraction) :
    Bool :=
  match action with
  | .hibernate | .reboot | .powerOff => decide (interaction = .interactive)
  | _ => false

def Effect.newGeneration : Effect → Bool
  | .lockSession | .passwordSubmitted => true
  | _ => false

namespace DesktopState

/-- How often the generation was counted up. -/
def generations (desktop : DesktopState) : ℕ := desktop.effects.countP Effect.newGeneration

/-- logind would ask for a password that the lock screen keeps from being typed. -/
def refuses (desktop : DesktopState) (authorization : Option PowerAuthorization) : Bool :=
  desktop.lockScreen.active && decide (authorization = some .challenge ∨ authorization = none)

/-- Nothing that the lock screen or a sleep reads has changed. -/
structure SameSession (s t : DesktopState) : Prop where
  lockScreen : t.lockScreen = s.lockScreen
  generation : t.lockAuthGeneration = s.lockAuthGeneration
  received : t.lockAuthRx = s.lockAuthRx
  unattended : t.unattendedSuspendState = s.unattendedSuspendState
  deferred : t.deferredPowerAction = s.deferredPowerAction
  locks : t.locks = s.locks
  generations : t.generations = s.generations

variable {s t u : DesktopState}

theorem SameSession.refl (s : DesktopState) : SameSession s s := ⟨rfl, rfl, rfl, rfl, rfl, rfl, rfl⟩

theorem SameSession.trans (h : SameSession s t) (h' : SameSession t u) : SameSession s u where
  lockScreen := h'.lockScreen.trans h.lockScreen
  generation := h'.generation.trans h.generation
  received := h'.received.trans h.received
  unattended := h'.unattended.trans h.unattended
  deferred := h'.deferred.trans h.deferred
  locks := h'.locks.trans h.locks
  generations := h'.generations.trans h.generations

theorem SameSession.congr (h : SameSession s t) (hu : u = t) : SameSession s u := by
  rw [hu]
  exact h

theorem same_emit (s : DesktopState) {eff : Effect} (h : eff.newGeneration = false) :
    SameSession s (s.emit eff) where
  lockScreen := rfl
  generation := rfl
  received := rfl
  unattended := rfl
  deferred := rfl
  locks := by
    have hne : eff ≠ .lockSession := by
      rintro rfl
      cases h
    simp [locks, emit, hne]
  generations := by simp [generations, emit, h]

theorem same_beforePowerAction (s : DesktopState) (act : PowerIpcRequest) :
    SameSession s (s.beforePowerAction act) := by
  unfold beforePowerAction
  by_cases hc : act = .reboot ∨ act = .powerOff
  · simp only [if_pos hc]
    split_ifs
    · exact (same_emit s rfl).trans (same_emit _ rfl)
    · exact same_emit s rfl
  · simp only [if_neg hc]
    split_ifs
    · exact same_emit s rfl
    · exact .refl s

theorem same_requestHdrSafePowerAction (s : DesktopState) (action : PowerIpcRequest)
    (ctx : PowerContext) (act : PowerActionInteraction) (now : ℕ) :
    SameSession s (s.requestHdrSafePowerAction action ctx act now) := by
  have hp := same_beforePowerAction s action
  unfold requestHdrSafePowerAction
  dsimp only
  split_ifs with hr
  · exact hp.trans (same_emit _ rfl)
  · exact hp.trans ⟨rfl, rfl, rfl, rfl, rfl, rfl, rfl⟩

theorem same_requestHdrSafeLogout (s : DesktopState) (now : ℕ) :
    SameSession s (s.requestHdrSafeLogout now) := by
  have hp : SameSession s
      ((s.emit (.checkpointSession true)).emit .rearmExclusiveHdrForNextSession) :=
    (same_emit s rfl).trans (same_emit _ rfl)
  unfold requestHdrSafeLogout
  dsimp only
  split_ifs with hr
  · exact hp.trans ⟨rfl, rfl, rfl, rfl, rfl, rfl, rfl⟩
  · exact hp.trans ⟨rfl, rfl, rfl, rfl, rfl, rfl, rfl⟩

theorem same_processHdrSafeSessionAction (s : DesktopState) (now : ℕ) :
    SameSession s (s.processHdrSafeSessionAction now) := by
  unfold processHdrSafeSessionAction
  rcases s.pendingHdrSafeAction with _ | pend
  · exact .refl s
  dsimp only
  split_ifs with hw
  · exact .refl s
  cases pend with
  | logout => exact ⟨rfl, rfl, rfl, rfl, rfl, rfl, rfl⟩
  | power action ctx act restoreAfterResume =>
    refine SameSession.trans ?_ (same_emit _ rfl)
    exact ⟨rfl, rfl, rfl, rfl, rfl, rfl, rfl⟩

theorem same_mapOutput (s : DesktopState) (id : OutputId) (f : OutputState → OutputState) :
    SameSession s (s.mapOutput id f) := ⟨rfl, rfl, rfl, rfl, rfl, rfl, rfl⟩

/-- A resume forgets the sleep, and the lock stays as it is. -/
theorem same_handleSessionResume (s : DesktopState) :
    SameSession { s with unattendedSuspendState := none } s.handleSessionResume := by
  suffices h : ∀ (ids : List OutputId) (t : DesktopState),
      SameSession { s with unattendedSuspendState := none } t →
      SameSession { s with unattendedSuspendState := none } (ids.foldl
        (fun desk id => desk.mapOutput id fun out =>
          { out with hdrRequested := out.hdrSupported }) t) from
    h _ _ ⟨rfl, rfl, rfl, rfl, rfl, rfl, rfl⟩
  intro ids
  induction ids with
  | nil => exact fun t ht => ht
  | cons id ids ih => exact fun t ht => ih _ (ht.trans (same_mapOutput t id _))

@[simp] theorem lockSession_lockScreen (s : DesktopState) :
    s.lockSession.lockScreen = s.lockScreen.lock := rfl

@[simp] theorem lockSession_generation (s : DesktopState) :
    s.lockSession.lockAuthGeneration = s.lockAuthGeneration + 1 := rfl

@[simp] theorem lockSession_received (s : DesktopState) :
    s.lockSession.lockAuthRx = s.lockAuthRx := rfl

@[simp] theorem lockSession_locks (s : DesktopState) : s.lockSession.locks = s.locks + 1 := by
  simp [lockSession, emit, locks]

@[simp] theorem lockSession_generations (s : DesktopState) :
    s.lockSession.generations = s.generations + 1 := by
  simp [lockSession, emit, generations, Effect.newGeneration]

theorem beforeDispatch_of_ne (s : DesktopState) {action : PowerIpcRequest} (h : action ≠ .suspend)
    (act : PowerActionInteraction) (now : ℕ) :
    s.beforeDispatch action act now = s := if_neg h

/-- A request without a session command goes out, a policy's request and a suspend ask for
nothing, and the others wait for the password or take the place of what waits. -/
theorem dispatchPowerAction_cases (s : DesktopState) (action : PowerIpcRequest) (ctx : PowerContext)
    (act : PowerActionInteraction) (auth : Option PowerAuthorization) (now : ℕ) :
    let after := s.dispatchPowerAction action ctx act auth now
    (sessionPowerCommand action = none ∧ after = s.emit (.powerServiceCommand action ctx act)) ∨
    (sessionPowerCommand action ≠ none ∧ action.prompts act = false ∧
      after = (s.beforeDispatch action act now).requestHdrSafePowerAction action ctx
        .nonInteractive now) ∨
    (action.prompts act ∧ s.refuses auth ∧ ∃ cmd,
      after = { s with deferredPowerAction := none }.deferPowerAction action ctx cmd) ∨
    (action.prompts act ∧ s.refuses auth = false ∧
      after = { s with deferredPowerAction := none }.requestHdrSafePowerAction action ctx
        .interactive now) := by
  intro after
  have ha : after = s.dispatchPowerAction action ctx act auth now := rfl
  unfold dispatchPowerAction at ha
  dsimp only at ha
  unfold dispatchPrepared at ha
  rcases hc : sessionPowerCommand action with _ | cmd
  · left
    have hne : action ≠ .suspend := by
      rintro rfl
      cases hc
    rw [hc, beforeDispatch_of_ne s hne] at ha
    refine ⟨rfl, ha.trans ?_⟩
    simp [powerActionInteraction, hne]
  · right
    rw [hc] at ha
    dsimp only at ha
    unfold dispatchSessionCommand at ha
    by_cases hs : action = .suspend
    · subst hs
      left
      exact ⟨by simp, rfl, ha⟩
    rw [beforeDispatch_of_ne s hs] at ha ⊢
    have has : powerActionInteraction action s.lockScreen.active act = act := by
      simp [powerActionInteraction, hs]
    rw [has] at ha
    cases act with
    | nonInteractive => exact .inl ⟨by simp, by cases action <;> rfl, ha⟩
    | interactive =>
      right
      have hp : action.prompts .interactive := by
        cases action with
        | suspend => exact absurd rfl hs
        | getSnapshot => cases hc
        | setPerformanceProfile prof => cases hc
        | hibernate => rfl
        | reboot => rfl
        | powerOff => rfl
      rw [if_neg (by decide)] at ha
      by_cases hr : s.refuses auth
      · left
        have hw := hr
        simp only [refuses, Bool.and_eq_true, decide_eq_true_eq] at hw
        exact ⟨hp, hr, cmd, ha.trans (if_pos hw)⟩
      · right
        have hw := hr
        simp only [refuses, Bool.and_eq_true, decide_eq_true_eq] at hw
        exact ⟨hp, by simpa using hr, ha.trans (if_neg hw)⟩

/-- The state in which a dispatched request is carried out, deferred or passed on: locked anew
by a suspend, as it was otherwise. -/
theorem same_dispatchPowerAction (s : DesktopState) (action : PowerIpcRequest) (ctx : PowerContext)
    (act : PowerActionInteraction) (auth : Option PowerAuthorization) (now : ℕ) :
    let pre := s.beforeDispatch action act now
    let after := s.dispatchPowerAction action ctx act auth now
    SameSession { pre with deferredPowerAction := after.deferredPowerAction } after ∨
      pre.lockScreen.active ∧ ∃ message,
        after = { pre with
          lockScreen := { pre.lockScreen with message }.clearPassword
          deferredPowerAction := some (action, ctx) } := by
  intro pre after
  have hne : ∀ {action : PowerIpcRequest}, action.prompts act →
      action ≠ .suspend := by
    rintro _ hp rfl
    cases hp
  have hs : ∀ {u : DesktopState}, SameSession u after →
      (∀ d, { u with deferredPowerAction := d } = { pre with deferredPowerAction := d }) →
      SameSession { pre with deferredPowerAction := after.deferredPowerAction } after := by
    intro u hu heq
    rw [← heq after.deferredPowerAction]
    exact ⟨hu.lockScreen, hu.generation, hu.received, hu.unattended, rfl, hu.locks, hu.generations⟩
  rcases dispatchPowerAction_cases s action ctx act auth now with
    ⟨hc, ha⟩ | ⟨-, -, ha⟩ | ⟨hp, hr, cmd, ha⟩ |
    ⟨hp, -, ha⟩
  · left
    have hsu : action ≠ .suspend := by
      rintro rfl
      cases hc
    have hpr : pre = s := beforeDispatch_of_ne s hsu act now
    refine hs (u := s) ?_ fun d => by rw [hpr]
    exact (same_emit s rfl).congr ha
  · left
    refine hs (u := pre) ?_ fun _ => rfl
    exact (same_requestHdrSafePowerAction pre action ctx .nonInteractive now).congr ha
  · right
    have hpr : pre = s := beforeDispatch_of_ne s (hne hp) act now
    rw [hpr]
    simp only [refuses, Bool.and_eq_true] at hr
    exact ⟨hr.1, _, ha⟩
  · left
    have hpr : pre = s := beforeDispatch_of_ne s (hne hp) act now
    refine hs (u := { s with deferredPowerAction := none }) ?_ fun d => by rw [hpr]
    exact (same_requestHdrSafePowerAction _ action ctx .interactive now).congr ha

/-- A result changes what the lock screen shows and not whether it is shown. -/
theorem receiveLockResult_eq (s : DesktopState) (res : UInt64 × Bool) (now : ℕ) :
    ∃ screen, s.receiveLockResult res now = { s with lockScreen := screen } ∧
      screen.active = s.lockScreen.active := by
  unfold receiveLockResult
  split_ifs
  · exact ⟨s.lockScreen, rfl, rfl⟩
  · exact ⟨_, rfl, rfl⟩
  · exact ⟨_, rfl, rfl⟩

theorem receiveLockResults_eq (s : DesktopState) (ress : List (UInt64 × Bool)) (now : ℕ) :
    ∃ screen, s.receiveLockResults ress now = { s with lockScreen := screen } ∧
      screen.active = s.lockScreen.active := by
  induction ress generalizing s with
  | nil => exact ⟨s.lockScreen, rfl, rfl⟩
  | cons res ress ih =>
    obtain ⟨fst, hf, ha⟩ := receiveLockResult_eq s res now
    obtain ⟨screen, hs, hl⟩ := ih (s.receiveLockResult res now)
    refine ⟨screen, hs.trans (by rw [hf]), ?_⟩
    rw [hl, hf]
    exact ha

theorem same_finishUnlock (s : DesktopState) (now : ℕ) :
    SameSession { s with lockScreen := s.lockScreen.unlock, deferredPowerAction := none }
      (s.finishUnlock now) := by
  unfold finishUnlock
  dsimp only
  rcases s.deferredPowerAction with _ | ⟨act, ctx⟩
  · exact .refl _
  · exact same_requestHdrSafePowerAction _ act ctx .interactive now

/-- The lock timers leave an unlocked session alone, and else take the results and end the lock
when it is due. -/
theorem processLockTimers_cases (s : DesktopState) (now : ℕ) :
    (s.lockScreen.active = false ∧ s.processLockTimers now = s) ∨
    (s.lockScreen.active ∧ ∃ recv,
      recv = { s.receiveLockResults s.lockAuthRx now with lockAuthRx := [] } ∧
      ((recv.unlockDue now ∧ s.processLockTimers now = recv.finishUnlock now) ∨
        (recv.unlockDue now = false ∧ s.processLockTimers now = recv))) := by
  unfold processLockTimers drainLockResults finishDueUnlock
  by_cases ha : s.lockScreen.active = false
  · exact .inl ⟨ha, if_pos ha⟩
  · refine .inr ⟨by simpa using ha, _, rfl, ?_⟩
    rw [if_neg ha]
    split_ifs with hd
    · exact .inl ⟨hd, rfl⟩
    · exact .inr ⟨by simpa using hd, rfl⟩

/-- A submission changes what the lock screen shows, and a new generation comes with every
password that is handed to a thread. -/
theorem submitLockPassword_cases (s : DesktopState) (spn : Bool) (now : ℕ) :
    (∃ screen, (s.submitLockPassword spn now).1 = { s with lockScreen := screen } ∧
      screen.active = s.lockScreen.active ∧
      (screen = s.lockScreen ∨ screen.pulse = some ⟨.rejected, now⟩) ∧
      (s.submitLockPassword spn now).2 = none) ∨
    (∃ screen, (s.submitLockPassword spn now).1 = { s with
        lockScreen := screen
        lockAuthGeneration := s.lockAuthGeneration + 1
        effects := s.effects ++ [.passwordSubmitted] } ∧
      s.lockScreen.active ∧ screen.active ∧
      (screen.pulse = s.lockScreen.pulse ∨ screen.pulse = some ⟨.rejected, now⟩) ∧
      ((s.submitLockPassword spn now).2 = none ∨
        ∃ pw, (s.submitLockPassword spn now).2 = some (s.lockAuthGeneration + 1, pw))) := by
  unfold submitLockPassword
  by_cases hi : s.lockScreen.active = false ∨ s.lockScreen.authenticating
  · left
    rw [if_pos hi]
    exact ⟨s.lockScreen, rfl, rfl, .inl rfl, rfl⟩
  rw [if_neg hi]
  by_cases he : s.lockScreen.password = []
  · left
    rw [if_pos he]
    exact ⟨_, rfl, rfl, .inr rfl, rfl⟩
  rw [if_neg he]
  have ha : s.lockScreen.active := by
    simp only [not_or, Bool.not_eq_false] at hi
    exact hi.1
  right
  cases spn with
  | true => exact ⟨_, rfl, ha, ha, .inl rfl, .inr ⟨_, rfl⟩⟩
  | false => exact ⟨_, rfl, ha, ha, .inr rfl, .inl rfl⟩

end DesktopState

end FocalDesk.Session
