import FocalDesk.Library.BTreeMap
import Mathlib.Data.Finset.Sort

/-! The keyboard accessibility filter: slow, bounce and sticky keys. -/
namespace FocalDesk
open Library

inductive KeyState where
  | pressed
  | released
deriving DecidableEq, Repr

inductive KeyRole where
  | shift
  | modifier
  | other
deriving DecidableEq, Repr

def KeyRole.isModifier : KeyRole → Bool
  | .other => false
  | _ => true

structure KeyTransition where
  keycode : ℕ
  state : KeyState
deriving DecidableEq, Repr

inductive Feedback where
  | stickyShortcutRequested
  | modifierLatched
  | modifierReleased
deriving DecidableEq, Repr

structure FilterOutput where
  events : List KeyTransition
  feedback : List Feedback

def FilterOutput.empty : FilterOutput := { events := [], feedback := [] }

structure KeyboardAccessibilitySettings where
  stickyKeys : Bool
  slowKeys : Bool
  slowKeysDelayMs : ℕ
  bounceKeys : Bool
  bounceKeysDelayMs : ℕ
  stickyKeysShortcut : Bool
  visualFeedback : Bool
deriving DecidableEq

namespace KeyboardAccessibilitySettings

def default : KeyboardAccessibilitySettings where
  stickyKeys := false
  slowKeys := false
  slowKeysDelayMs := 500
  bounceKeys := false
  bounceKeysDelayMs := 300
  stickyKeysShortcut := true
  visualFeedback := true

/-- Both delays have the range `100..=2_000`. -/
def sanitized (settings : KeyboardAccessibilitySettings) : KeyboardAccessibilitySettings :=
  { settings with
    slowKeysDelayMs := max 100 (min settings.slowKeysDelayMs 2000)
    bounceKeysDelayMs := max 100 (min settings.bounceKeysDelayMs 2000) }

end KeyboardAccessibilitySettings

structure PendingPress where
  acceptedAt : ℕ
  role : KeyRole

/-- Instants are nanoseconds. -/
structure KeyboardAccessibilityFilter where
  config : KeyboardAccessibilitySettings
  pending : BTreeMap ℕ PendingPress
  deliveredDown : BTreeMap ℕ KeyRole
  bounceRejectedDown : Finset ℕ
  lastRelease : BTreeMap ℕ ℕ
  latchedModifiers : Finset ℕ
  ignoreModifierRelease : Finset ℕ
  consumeLatchesAfter : Option ℕ
  shiftTaps : ℕ
  lastShiftPress : Option ℕ

def milliseconds (n : ℕ) : ℕ := n * 1000000

/-- A press that was accepted when the delay of its key was over. -/
structure ReadyPress where
  acceptedAt : ℕ
  keycode : ℕ
  role : KeyRole

namespace KeyboardAccessibilityFilter

def new (config : KeyboardAccessibilitySettings) : KeyboardAccessibilityFilter where
  config := config.sanitized
  pending := ∅
  deliveredDown := ∅
  bounceRejectedDown := ∅
  lastRelease := ∅
  latchedModifiers := ∅
  ignoreModifierRelease := ∅
  consumeLatchesAfter := none
  shiftTaps := 0
  lastShiftPress := none

variable (filter : KeyboardAccessibilityFilter)

def trackStickyShortcut (state : KeyState) (role : KeyRole) (now : ℕ) :
    KeyboardAccessibilityFilter × List Feedback :=
  if filter.config.stickyKeysShortcut = false ∨ state ≠ .pressed then (filter, [])
  else if role ≠ .shift then ({ filter with shiftTaps := 0, lastShiftPress := none }, [])
  else
    let continues := filter.lastShiftPress.any fun previous => now - previous ≤ milliseconds 700
    let shiftTaps := if continues then min (filter.shiftTaps + 1) 255 else 1
    if shiftTaps = 5 then
      ({ filter with shiftTaps := 0, lastShiftPress := none }, [.stickyShortcutRequested])
    else ({ filter with shiftTaps, lastShiftPress := some now }, [])

/-- The end of the key that the latches were to last for. -/
def consumeLatches (now : ℕ) (output : FilterOutput) :
    KeyboardAccessibilityFilter × FilterOutput :=
  let modifiers := filter.latchedModifiers.sort (· ≤ ·)
  ({ filter with
      consumeLatchesAfter := none
      latchedModifiers := ∅
      deliveredDown := modifiers.foldl (fun down keycode => down.erase keycode) filter.deliveredDown
      lastRelease :=
        modifiers.foldl (fun released keycode => released.insert keycode now) filter.lastRelease },
    { events := output.events ++ modifiers.map fun keycode => ⟨keycode, .released⟩
      feedback := output.feedback ++ [.modifierReleased] })

def applyPressed (keycode : ℕ) (role : KeyRole) (output : FilterOutput) :
    KeyboardAccessibilityFilter × FilterOutput :=
  if filter.config.stickyKeys = true ∧ role.isModifier = true ∧
      keycode ∈ filter.latchedModifiers then
    ({ filter with
        latchedModifiers := filter.latchedModifiers.erase keycode
        ignoreModifierRelease := insert keycode filter.ignoreModifierRelease
        deliveredDown := filter.deliveredDown.erase keycode },
      { events := output.events ++ [⟨keycode, .released⟩]
        feedback := output.feedback ++ [.modifierReleased] })
  else
    ({ filter with
        deliveredDown := filter.deliveredDown.insert keycode role
        consumeLatchesAfter :=
          if filter.config.stickyKeys = true ∧ role.isModifier = false ∧
              filter.latchedModifiers ≠ ∅ then some keycode
          else filter.consumeLatchesAfter },
      { output with events := output.events ++ [⟨keycode, .pressed⟩] })

def applyReleased (keycode : ℕ) (role : KeyRole) (now : ℕ) (output : FilterOutput) :
    KeyboardAccessibilityFilter × FilterOutput :=
  if keycode ∈ filter.ignoreModifierRelease then
    ({ filter with ignoreModifierRelease := filter.ignoreModifierRelease.erase keycode }, output)
  else
    let released := { filter with
      deliveredDown := filter.deliveredDown.erase keycode
      lastRelease := filter.lastRelease.insert keycode now }
    if filter.config.stickyKeys = true ∧ role.isModifier = true then
      ({ released with latchedModifiers := insert keycode filter.latchedModifiers },
        { output with feedback := output.feedback ++ [.modifierLatched] })
    else
      let output := { output with events := output.events ++ [⟨keycode, .released⟩] }
      if filter.consumeLatchesAfter = some keycode then released.consumeLatches now output
      else (released, output)

def applyAccepted (transition : KeyTransition) (role : KeyRole) (now : ℕ) (output : FilterOutput)
    : KeyboardAccessibilityFilter × FilterOutput :=
  match transition.state with
  | .pressed => filter.applyPressed transition.keycode role output
  | .released => filter.applyReleased transition.keycode role now output

def process (keycode : ℕ) (state : KeyState) (role : KeyRole) (now : ℕ) :
    KeyboardAccessibilityFilter × FilterOutput :=
  let tracked := filter.trackStickyShortcut state role now
  let filter := tracked.1
  let output := { FilterOutput.empty with feedback := tracked.2 }
  match state with
  | .pressed =>
    if filter.config.bounceKeys = true ∧ (filter.lastRelease[keycode]?.any fun releasedAt =>
        now - releasedAt < milliseconds filter.config.bounceKeysDelayMs) = true then
      ({ filter with bounceRejectedDown := insert keycode filter.bounceRejectedDown }, output)
    else if filter.config.slowKeys = true then
      ({ filter with
          pending := filter.pending.insertIfNew keycode
            { acceptedAt := now + milliseconds filter.config.slowKeysDelayMs, role } }, output)
    else filter.applyAccepted ⟨keycode, state⟩ role now output
  | .released =>
    if keycode ∈ filter.bounceRejectedDown then
      ({ filter with bounceRejectedDown := filter.bounceRejectedDown.erase keycode }, output)
    else if keycode ∈ filter.pending then
      ({ filter with pending := filter.pending.erase keycode }, output)
    else
      filter.applyAccepted ⟨keycode, state⟩ (filter.deliveredDown[keycode]?.getD role) now output

/-- The pending presses whose delay is over, by the time they are accepted at and their key. -/
def ready (now : ℕ) : List ReadyPress :=
  ((filter.pending.toList.filter fun entry => entry.2.acceptedAt ≤ now).map fun entry =>
    { acceptedAt := entry.2.acceptedAt, keycode := entry.1, role := entry.2.role }).insertionSort
      fun a b => a.acceptedAt < b.acceptedAt ∨ a.acceptedAt = b.acceptedAt ∧ a.keycode ≤ b.keycode

def accept (now : ℕ) : List ReadyPress → KeyboardAccessibilityFilter → FilterOutput →
    KeyboardAccessibilityFilter × FilterOutput
  | [], filter, output => (filter, output)
  | press :: ready, filter, output =>
    let after := { filter with pending := filter.pending.erase press.keycode }.applyAccepted
      ⟨press.keycode, .pressed⟩ press.role now output
    accept now ready after.1 after.2

def tick (now : ℕ) : KeyboardAccessibilityFilter × FilterOutput :=
  accept now (filter.ready now) filter .empty

/-- Latched modifiers are forgotten and not released. -/
def releaseAll : KeyboardAccessibilityFilter × List KeyTransition :=
  ({ filter with
      pending := ∅
      bounceRejectedDown := ∅
      ignoreModifierRelease := ∅
      latchedModifiers := ∅
      consumeLatchesAfter := none
      shiftTaps := 0
      lastShiftPress := none
      lastRelease := ∅
      deliveredDown := ∅ },
    filter.deliveredDown.keys.map fun keycode => ⟨keycode, .released⟩)

def reconfigure (config : KeyboardAccessibilitySettings) :
    KeyboardAccessibilityFilter × List KeyTransition :=
  if filter.config = config.sanitized then (filter, [])
  else ({ filter.releaseAll.1 with config := config.sanitized }, filter.releaseAll.2)

end KeyboardAccessibilityFilter

end FocalDesk
