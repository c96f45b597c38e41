import FocalDesk.Keyboard.Filter

/-! The session state of the desktop: lock screen, sleep, power requests and HDR. -/
namespace FocalDesk.Session

inductive LockPulseKind where
  | accepted
  | rejected
deriving DecidableEq, Repr

structure LockPulse where
  kind : LockPulseKind
  startedAt : ℕ
deriving DecidableEq, Repr

def lockPulseDuration : ℕ := milliseconds 900

structure LockScreenState where
  active : Bool
  password : List Char
  passwordVisible : Bool
  message : String
  authenticating : Bool
  pulse : Option LockPulse
deriving DecidableEq, Repr

namespace LockScreenState

def new : LockScreenState where
  active := false
  password := []
  passwordVisible := false
  message := "Enter password"
  authenticating := false
  pulse := none

variable (screen : LockScreenState)

def lock (_screen : LockScreenState) : LockScreenState where
  active := true
  password := []
  passwordVisible := false
  message := "Enter password"
  authenticating := false
  pulse := none

def unlock (_screen : LockScreenState) : LockScreenState where
  active := false
  password := []
  passwordVisible := false
  message := ""
  authenticating := false
  pulse := none

def pushChar (ch : Char) : LockScreenState :=
  { screen with password := screen.password ++ [ch], message := "Enter password" }

def backspace : LockScreenState :=
  { screen with password := screen.password.dropLast, message := "Enter password" }

def clearPassword : LockScreenState := { screen with password := [], passwordVisible := false }

def togglePasswordVisibility : LockScreenState :=
  { screen with passwordVisible := !screen.passwordVisible }

def startPulse (kind : LockPulseKind) (now : ℕ) : LockScreenState :=
  { screen with pulse := some { kind, startedAt := now } }

end LockScreenState

inductive PowerIpcRequest where
  | getSnapshot
  | suspend
  | hibernate
  | reboot
  | powerOff
  | setPerformanceProfile (profile : String)
deriving DecidableEq, Repr

inductive PowerCommand where
  | suspend
  | hibernate
  | reboot
  | powerOff
deriving DecidableEq, Repr

inductive PowerActionInteraction where
  | interactive
  | nonInteractive
deriving DecidableEq, Repr

inductive PowerAuthorization where
  | allowed
  | challenge
  | unavailable
deriving DecidableEq, Repr

/-- What a request is reported as. The number tells a request from the others of a run, and
nothing reads it. -/
structure PowerContext where
  text : String
  number : ℕ
deriving DecidableEq, Repr

def sessionPowerCommand : PowerIpcRequest → Option PowerCommand
  | .suspend => some .suspend
  | .hibernate => some .hibernate
  | .reboot => some .reboot
  | .powerOff => some .powerOff
  | .getSnapshot => none
  | .setPerformanceProfile _ => none

def powerActionDescription : PowerCommand → String
  | .suspend => "suspend"
  | .hibernate => "hibernate"
  | .reboot => "restart"
  | .powerOff => "power off"

def powerActionInteraction (action : PowerIpcRequest) (lockScreenActive : Bool)
    (requested : PowerActionInteraction) : PowerActionInteraction :=
  if lockScreenActive = true ∧ action = .suspend then .nonInteractive else requested

def PowerIpcRequest.sleeps : PowerIpcRequest → Bool
  | .suspend | .hibernate => true
  | _ => false

inductive UnattendedSuspendState where
  | requested (at_ : ℕ)
  | sleeping
deriving DecidableEq, Repr

def unattendedSuspendPrepareTimeout : ℕ := milliseconds 30000

def hdrSafeSessionActionTimeout : ℕ := milliseconds 8000

namespace UnattendedSuspendState

/-- Whether the sleep is the one that a policy asked for, and what is remembered then. -/
def prepareForSleep (state : Option UnattendedSuspendState) (now : ℕ) :
    Bool × Option UnattendedSuspendState :=
  match state with
  | none => (false, none)
  | some (.requested at_) =>
    if now - at_ ≤ unattendedSuspendPrepareTimeout then (true, some .sleeping) else (false, none)
  | some .sleeping => (true, some .sleeping)

end UnattendedSuspendState

abbrev OutputId := ℕ

/-- A connector that is on its way out of HDR is still in HDR. -/
structure OutputState where
  hdrSupported : Bool
  hdrRequested : Bool
  hdrVerificationPending : Bool
  hdrEnabled : Bool
  hdrKmsApplied : Bool
  hdrTransitionTarget : Option Bool
  leaving : hdrTransitionTarget = some false → hdrKmsApplied = true
deriving DecidableEq

/-- The outputs stand in the order of their insertion, each with an id of its own. -/
abbrev Outputs := { entries : List (OutputId × OutputState) // (entries.map Prod.fst).Nodup }

def Outputs.map (f : OutputId → OutputState → OutputState) (outputs : Outputs) : Outputs :=
  ⟨outputs.1.map fun entry => (entry.1, f entry.1 entry.2), by
    have hids : (outputs.1.map fun entry => (entry.1, f entry.1 entry.2)).map Prod.fst =
        outputs.1.map Prod.fst := by simp [Function.comp_def]
    rw [hids]
    exact outputs.2⟩

inductive HdrSafeSessionAction where
  | logout
  | power (action : PowerIpcRequest) (context : PowerContext)
      (interaction : PowerActionInteraction) (restoreAfterResume : List OutputId)
deriving DecidableEq, Repr

/-- What the desktop does, in the order it does it. -/
inductive Effect where
  | lockSession
  | passwordSubmitted
  | powerServiceCommand (action : PowerIpcRequest) (context : PowerContext)
      (interaction : PowerActionInteraction)
  | checkpointSession (clean : Bool)
  | rearmExclusiveHdrForNextSession
deriving DecidableEq, Repr

structure DesktopState where
  lockScreen : LockScreenState
  lockAuthGeneration : UInt64
  lockAuthRx : List (UInt64 × Bool)
  unattendedSuspendState : Option UnattendedSuspendState
  deferredPowerAction : Option (PowerIpcRequest × PowerContext)
  pendingHdrSafeAction : Option HdrSafeSessionAction
  pendingHdrSafeActionStartedAt : Option ℕ
  hdrOutputsToRestoreAfterResume : List OutputId
  outputs : Outputs
  running : Bool
  effects : List Effect
deriving DecidableEq

namespace DesktopState

def new (outputs : Outputs) : DesktopState where
  lockScreen := .new
  lockAuthGeneration := 0
  lockAuthRx := []
  unattendedSuspendState := none
  deferredPowerAction := none
  pendingHdrSafeAction := none
  pendingHdrSafeActionStartedAt := none
  hdrOutputsToRestoreAfterResume := []
  outputs
  running := true
  effects := []

variable (desktop : DesktopState)

def emit (effect : Effect) : DesktopState :=
  { desktop with effects := desktop.effects ++ [effect] }

def mapOutput (id : OutputId) (f : OutputState → OutputState) : DesktopState :=
  { desktop with
    outputs := Outputs.map (fun i output => if i = id then f output else output) desktop.outputs }

def lockSession : DesktopState :=
  { desktop with
    lockAuthGeneration := desktop.lockAuthGeneration + 1
    lockScreen := desktop.lockScreen.lock }.emit .lockSession

def hdrRollbackNeeded : Bool :=
  desktop.outputs.1.any fun entry =>
    entry.2.hdrKmsApplied || decide (entry.2.hdrTransitionTarget = some true)

def beginHdrRollback : DesktopState :=
  { desktop with
    outputs := Outputs.map (fun _ output => { output with
      hdrRequested := false, hdrVerificationPending := false, hdrEnabled := false })
      desktop.outputs }

def requestHdrSafeLogout (now : ℕ) : DesktopState :=
  let desktop := (desktop.emit (.checkpointSession true)).emit .rearmExclusiveHdrForNextSession
  if desktop.hdrRollbackNeeded = false then { desktop with running := false }
  else
    { desktop with
      pendingHdrSafeAction := some .logout
      pendingHdrSafeActionStartedAt := some now }.beginHdrRollback

/-- The outputs whose request a sleep takes away for a while. -/
def outputsToRestore (action : PowerIpcRequest) : List OutputId :=
  if action.sleeps = true then
    desktop.outputs.1.filterMap fun entry => if entry.2.hdrRequested then some entry.1 else none
  else []

/-- What is written down before a power action of each kind. -/
def beforePowerAction (action : PowerIpcRequest) : DesktopState :=
  let desktop :=
    if action = .reboot ∨ action = .powerOff then desktop.emit (.checkpointSession true)
    else desktop
  if action.sleeps = false then desktop.emit .rearmExclusiveHdrForNextSession else desktop

def requestHdrSafePowerAction (action : PowerIpcRequest) (context : PowerContext)
    (interaction : PowerActionInteraction) (now : ℕ) : DesktopState :=
  let desktop := desktop.beforePowerAction action
  if desktop.hdrRollbackNeeded = false then
    desktop.emit (.powerServiceCommand action context interaction)
  else
    { desktop with
      pendingHdrSafeAction :=
        some (.power action context interaction (desktop.outputsToRestore action))
      pendingHdrSafeActionStartedAt := some now }.beginHdrRollback

/-- The answer to an interactive request that has to wait for the password. -/
def deferPowerAction (action : PowerIpcRequest) (context : PowerContext) (command : PowerCommand)
    : DesktopState :=
  { desktop with
    lockScreen := { desktop.lockScreen with
      message := "Unlock to " ++ powerActionDescription command }.clearPassword
    deferredPowerAction := some (action, context) }

/-- Locking and remembering come first when a suspend is asked for. -/
def beforeDispatch (action : PowerIpcRequest) (interaction : PowerActionInteraction) (now : ℕ) :
    DesktopState :=
  if action = .suspend then
    { desktop.lockSession with
      unattendedSuspendState :=
        if interaction = .nonInteractive then some (.requested now) else none }
  else desktop

/-- A locked desktop keeps an interactive command that logind would ask a password for.
`authorization` is what logind answers, and nothing when the call fails. -/
def deferOrRequest (action : PowerIpcRequest) (context : PowerContext) (command : PowerCommand)
    (interaction : PowerActionInteraction) (authorization : Option PowerAuthorization) (now : ℕ)
    : DesktopState :=
  if desktop.lockScreen.active = true ∧
      (authorization = some .challenge ∨ authorization = none) then
    desktop.deferPowerAction action context command
  else desktop.requestHdrSafePowerAction action context interaction now

def dispatchSessionCommand (action : PowerIpcRequest) (context : PowerContext)
    (command : PowerCommand) (interaction : PowerActionInteraction)
    (authorization : Option PowerAuthorization) (now : ℕ) : DesktopState :=
  if interaction = .nonInteractive then
    desktop.requestHdrSafePowerAction action context interaction now
  else
    { desktop with deferredPowerAction := none }.deferOrRequest action context command interaction
      authorization now

def dispatchPrepared (action : PowerIpcRequest) (context : PowerContext)
    (interaction : PowerActionInteraction) (authorization : Option PowerAuthorization) (now : ℕ)
    : DesktopState :=
  match sessionPowerCommand action with
  | none => desktop.emit (.powerServiceCommand action context interaction)
  | some command =>
    desktop.dispatchSessionCommand action context command interaction authorization now

def dispatchPowerAction (action : PowerIpcRequest) (context : PowerContext)
    (interaction : PowerActionInteraction) (authorization : Option PowerAuthorization) (now : ℕ)
    : DesktopState :=
  let desktop := desktop.beforeDispatch action interaction now
  desktop.dispatchPrepared action context
    (powerActionInteraction action desktop.lockScreen.active interaction) authorization now

/-- Some connector is still in HDR or on its way from one mode to the other. -/
def transitionPending : Bool :=
  desktop.outputs.1.any fun entry =>
    entry.2.hdrKmsApplied || entry.2.hdrTransitionTarget.isSome

def pendingTimedOut (now : ℕ) : Bool :=
  desktop.pendingHdrSafeActionStartedAt.any fun started =>
    hdrSafeSessionActionTimeout ≤ now - started

def processHdrSafeSessionAction (now : ℕ) : DesktopState :=
  match desktop.pendingHdrSafeAction with
  | none => desktop
  | some pending =>
    if desktop.transitionPending = true ∧ desktop.pendingTimedOut now = false then desktop
    else
      let desktop := { desktop with
        pendingHdrSafeActionStartedAt := none, pendingHdrSafeAction := none }
      match pending with
      | .logout => { desktop with running := false }
      | .power action context interaction restoreAfterResume =>
        { desktop with hdrOutputsToRestoreAfterResume := restoreAfterResume }.emit
          (.powerServiceCommand action context interaction)

/-- `spawned` is whether the thread that asks PAM could be started; with it comes what the
thread is given. -/
def submitLockPassword (spawned : Bool) (now : ℕ) :
    DesktopState × Option (UInt64 × List Char) :=
  if desktop.lockScreen.active = false ∨ desktop.lockScreen.authenticating = true then
    (desktop, none)
  else if desktop.lockScreen.password = [] then
    ({ desktop with lockScreen :=
        { desktop.lockScreen with message := "Enter password" }.startPulse .rejected now }, none)
  else
    let password := desktop.lockScreen.password
    let generation := desktop.lockAuthGeneration + 1
    let waiting := { desktop.lockScreen with
      authenticating := true, message := "Authenticating" }.clearPassword
    let desktop :=
      { desktop with lockAuthGeneration := generation, lockScreen := waiting }.emit
        .passwordSubmitted
    if spawned then (desktop, some (generation, password))
    else
      ({ desktop with lockScreen := { waiting with
          authenticating := false
          message := "Authentication service unavailable" }.startPulse .rejected now }, none)

/-- One result of a worker, taken from the channel. -/
def receiveLockResult (result : UInt64 × Bool) (now : ℕ) : DesktopState :=
  if result.1 ≠ desktop.lockAuthGeneration ∨ desktop.lockScreen.authenticating = false then desktop
  else
    let screen := { desktop.lockScreen with authenticating := false }.clearPassword
    { desktop with lockScreen :=
        if result.2 then { screen with message := "Unlocked" }.startPulse .accepted now
        else { screen with message := "Wrong password" }.startPulse .rejected now }

def receiveLockResults (results : List (UInt64 × Bool)) (now : ℕ) : DesktopState :=
  results.foldl (fun desktop result => desktop.receiveLockResult result now) desktop

/-- The accepted password has been shown for long enough. -/
def unlockDue (now : ℕ) : Bool :=
  desktop.lockScreen.pulse.any fun pulse =>
    decide (pulse.kind = .accepted) && decide (lockPulseDuration ≤ now - pulse.startedAt)

def finishUnlock (now : ℕ) : DesktopState :=
  let desktop := { desktop with lockScreen := desktop.lockScreen.unlock }
  match desktop.deferredPowerAction with
  | none => desktop
  | some (action, context) =>
    { desktop with deferredPowerAction := none }.requestHdrSafePowerAction action context
      .interactive now

/-- The results the PAM threads have sent so far. -/
def drainLockResults (now : ℕ) : DesktopState :=
  { desktop.receiveLockResults desktop.lockAuthRx now with lockAuthRx := [] }

def finishDueUnlock (now : ℕ) : DesktopState :=
  if desktop.unlockDue now = true then desktop.finishUnlock now else desktop

def processLockTimers (now : ℕ) : DesktopState :=
  if desktop.lockScreen.active = false then desktop
  else (desktop.drainLockResults now).finishDueUnlock now

def handleSessionResume : DesktopState :=
  desktop.hdrOutputsToRestoreAfterResume.foldl
    (fun desktop id => desktop.mapOutput id fun output =>
      { output with hdrRequested := output.hdrSupported })
    { desktop with unattendedSuspendState := none, hdrOutputsToRestoreAfterResume := [] }

def handleSessionSuspend (now : ℕ) : DesktopState :=
  let prepared := UnattendedSuspendState.prepareForSleep desktop.unattendedSuspendState now
  let desktop := { desktop with unattendedSuspendState := prepared.2 }
  if prepared.1 = false then desktop.lockSession else desktop

end DesktopState

end FocalDesk.Session
