import FocalDesk.Keyboard.Held
import FocalDesk.Session.Lock

/-! Input while the session is locked: what a client may see of it. -/
namespace FocalDesk.Session
open Library List Nat KeyboardAccessibilityFilter

inductive MouseButton where
  | left
  | right
  | middle
  | other (code : ℕ)
deriving DecidableEq, Repr

/-- The events of the input devices other than the keyboard. Where the pointer is counts only
for the reveal button of the lock screen, and for what the desktop makes of the event. -/
inductive InputEvent where
  | pointerMoved
  | pointerButton (button : MouseButton) (state : KeyState) (onRevealButton : Bool)
  | pointerScroll
  | touchDown
  | touchMotion
  | touchUp
  | touchCancel
  | touchFrame
  | gestureSwipeBegin
  | gestureSwipeUpdate
  | gestureSwipeEnd
  | pointerEntered
  | pointerLeft
deriving DecidableEq, Repr

/-- Button presses, scrolling and new contacts: what a client acts on. -/
def InputEvent.acts : InputEvent → Bool
  | .pointerButton _ state _ => state = .pressed
  | .pointerScroll | .touchDown => true
  | _ => false

/-- What the lock screen makes of a key. -/
inductive LockKey where
  | submit (spawned : Bool)
  | backspace
  | escape
  | text (chars : List Char)
deriving DecidableEq

def LockKey.events : LockKey → List Event
  | .submit spawned => [.submitLockPassword spawned]
  | .backspace => [.backspace]
  | .escape => [.escape]
  | .text chars => chars.map .pushChar

/-- What the desktop makes of a key: it goes on to the focused client, stays with a panel, a
dialog or a shortcut, or its shortcut locks the session or asks for a power action. -/
inductive KeyOutcome where
  | forwarded
  | intercepted
  | locks
  | asks (action : PowerIpcRequest) (text : String) (interaction : PowerActionInteraction)
      (authorization : Option PowerAuthorization)
deriving DecidableEq

def KeyOutcome.events : KeyOutcome → List Event
  | .forwarded | .intercepted => []
  | .locks => [.lockSession]
  | .asks action text interaction authorization =>
    [.dispatchPowerAction action text interaction authorization]

/-- What the layout, the shortcuts and the focus make of each key at the time of an event. -/
structure KeyMeaning where
  lockKey : ℕ → LockKey
  outcome : ℕ → KeyOutcome

/-- A world after events that it does not refuse. -/
def World.after (world : World) (events : List Event) : World :=
  (run World.step world events).getD world

/-- `arrivals` counts the input events, and each goes by its number: `whileActive` holds those
that came while the lock screen was shown, `held` the one of each press that waits for its
delay, and `delivered` the key presses, button presses, scrolls and contacts that a client got. -/
structure Seat where
  world : World
  filter : KeyboardAccessibilityFilter
  arrivals : ℕ
  whileActive : List ℕ
  held : ℕ → ℕ
  delivered : List ℕ

namespace Seat

def start (outputs : Outputs) (config : KeyboardAccessibilitySettings) : Seat where
  world := .start outputs
  filter := .new config
  arrivals := 0
  whileActive := []
  held := fun _ => 0
  delivered := []

variable (seat : Seat)

def active : Bool := seat.world.desktop.lockScreen.active

/-- The next event comes in. -/
def arrive : Seat :=
  { seat with
    arrivals := seat.arrivals + 1
    whileActive := if seat.active then seat.whileActive ++ [seat.arrivals] else seat.whileActive }

def handleLockKeyEvent (meaning : KeyMeaning) (transition : KeyTransition) : Seat :=
  match transition.state with
  | .pressed =>
    { seat with world := seat.world.after (meaning.lockKey transition.keycode).events }
  | .released => seat

/-- Past the lock screen, a key is not looked at again before it goes to the client. -/
def handleKeyboardInput (meaning : KeyMeaning) (arrival : ℕ) (transition : KeyTransition) : Seat :=
  match transition.state with
  | .pressed =>
    { seat with
      world := seat.world.after (meaning.outcome transition.keycode).events
      delivered :=
        if meaning.outcome transition.keycode = .forwarded then seat.delivered ++ [arrival]
        else seat.delivered }
  | .released => seat

/-- The filter with an event, and which event each new press that waits came with. -/
def filterPhysicalKeyEvent (arrival keycode : ℕ) (state : KeyState) (role : KeyRole) :
    Seat × List KeyTransition :=
  let filtered := seat.filter.process keycode state role seat.world.now
  ({ seat with
      filter := filtered.1
      held := fun k => if k ∈ seat.filter.pending then seat.held k else
        if k ∈ filtered.1.pending then arrival else seat.held k },
    filtered.2.events)

/-- A key of a device, where the backend gives it to `handle_input`. -/
def handleKey (meaning : KeyMeaning) (keycode : ℕ) (state : KeyState) (role : KeyRole) : Seat :=
  let arrival := seat.arrivals
  let arrived := seat.arrive
  if seat.active = true then arrived.handleLockKeyEvent meaning ⟨keycode, state⟩
  else
    let filtered := arrived.filterPhysicalKeyEvent arrival keycode state role
    filtered.2.foldl (fun seat transition => seat.handleKeyboardInput meaning arrival transition)
      filtered.1

/-- A transition of the filter in the raw Vulkan backend, which asks for the lock screen now. -/
def dispatchVuiEvent (meaning : KeyMeaning) (arrival : ℕ) (transition : KeyTransition) : Seat :=
  if seat.active = true then seat.handleLockKeyEvent meaning transition
  else seat.handleKeyboardInput meaning arrival transition

/-- A key of a device in the raw Vulkan backend, which filters it first. -/
def dispatchVuiInput (meaning : KeyMeaning) (keycode : ℕ) (state : KeyState) (role : KeyRole) :
    Seat :=
  let arrival := seat.arrivals
  let filtered := seat.arrive.filterPhysicalKeyEvent arrival keycode state role
  filtered.2.foldl (fun seat transition => seat.dispatchVuiEvent meaning arrival transition)
    filtered.1

/-- The presses whose delay is over, each with the number it came with. -/
def tickKeyboardAccessibility (meaning : KeyMeaning) : Seat :=
  if seat.active = true then seat
  else
    let ticked := seat.filter.tick seat.world.now
    ticked.2.events.foldl
      (fun after transition =>
        after.handleKeyboardInput meaning (seat.held transition.keycode) transition)
      { seat with filter := ticked.1 }

/-- An event of a pointer or a touch device, and whether the desktop gives it to a client. -/
def handleInput (event : InputEvent) (forwarded : Bool) : Seat :=
  let arrival := seat.arrivals
  let arrived := seat.arrive
  if seat.active = true then
    if event = .pointerButton .left .pressed true then
      { arrived with world := seat.world.after [.togglePasswordVisibility] }
    else arrived
  else if forwarded && event.acts then
    { arrived with delivered := arrived.delivered ++ [arrival] }
  else arrived

end Seat

inductive SeatEvent where
  | session (event : Event)
  | key (meaning : KeyMeaning) (keycode : ℕ) (state : KeyState) (role : KeyRole)
  | vulkanKey (meaning : KeyMeaning) (keycode : ℕ) (state : KeyState) (role : KeyRole)
  | input (event : InputEvent) (forwarded : Bool)
  | tick (meaning : KeyMeaning)

namespace Seat

def step (seat : Seat) : SeatEvent → Option Seat
  | .session event => (seat.world.step event).map fun world => { seat with world }
  | .key meaning keycode state role => some (seat.handleKey meaning keycode state role)
  | .vulkanKey meaning keycode state role =>
    some (seat.dispatchVuiInput meaning keycode state role)
  | .input event forwarded => some (seat.handleInput event forwarded)
  | .tick meaning => some (seat.tickKeyboardAccessibility meaning)

/-- A lock ends only after a thread has answered true for a password of that lock, and what
came while one was shown is not delivered. -/
structure LockSafe (seat : Seat) (event : SeatEvent) : Prop where
  unlocked : ∀ next, seat.step event = some next → seat.active = true → next.active = false →
    seat.world.desktop.locks ∈ seat.world.accepted
  delivered : ∀ next, seat.step event = some next → ∀ arrival ∈ next.delivered,
    arrival ∉ next.whileActive

/-- The generation counter has not come round. -/
def NoWrap (seat : Seat) (_ : SeatEvent) : Prop := seat.world.desktop.generations < 2 ^ 64

/-- No press comes to the raw Vulkan backend on the lock screen that slow keys hold back. -/
def HoldsNothing (seat : Seat) : SeatEvent → Prop
  | .vulkanKey _ keycode state _ =>
    ¬(seat.active = true ∧ state = .pressed ∧ seat.filter.holds keycode seat.world.now = true)
  | _ => True

instance (seat : Seat) : (event : SeatEvent) → Decidable (HoldsNothing seat event)
  | .vulkanKey .. => inferInstanceAs (Decidable (¬_))
  | .session _ | .key .. | .input .. | .tick _ => isTrue trivial

instance (seat : Seat) (event : SeatEvent) : Decidable (NoWrap seat event) :=
  inferInstanceAs (Decidable (_ < _))

structure Inv (seat : Seat) : Prop where
  lock : World.LockInv seat.world.desktop seat.world.workers seat.world.accepted
  held : ∀ k ∈ seat.filter.pending, seat.held k ∉ seat.whileActive ∧ seat.held k < seat.arrivals
  arrived : ∀ arrival ∈ seat.whileActive, arrival < seat.arrivals
  delivered : ∀ arrival ∈ seat.delivered, arrival ∉ seat.whileActive ∧ arrival < seat.arrivals

variable {seat : Seat} {next base : Seat} {ev : SeatEvent} {events : List SeatEvent} {arrival : ℕ}

theorem after_keeps {world : World} (h : World.LockInv world.desktop world.workers world.accepted)
    {events : List Event} (he : Event.processLockTimers ∉ events) :
    World.LockInv (world.after events).desktop (world.after events).workers
        (world.after events).accepted ∧
      (world.desktop.lockScreen.active → (world.after events).desktop.lockScreen.active) := by
  unfold World.after
  rcases hr : run World.step world events with _ | after
  · exact ⟨h, fun ha => ha⟩
  · induction events generalizing world with
    | nil =>
      cases hr
      exact ⟨h, fun ha => ha⟩
    | cons ev events ih =>
      obtain ⟨middle, hm, hre⟩ := run_cons_eq_some.mp hr
      rw [mem_cons, not_or] at he
      obtain ⟨hne, he⟩ := he
      obtain ⟨hi, hen⟩ := World.lockInv_step hm (fun heq => absurd heq.symm hne) h
      obtain ⟨hl, hk⟩ := ih hi he hre
      refine ⟨hl, fun ha => hk ?_⟩
      by_contra hu
      exact hne (hen ha (by simpa using hu)).1.symm

theorem lockKey_events (key : LockKey) : Event.processLockTimers ∉ key.events := by
  cases key <;> simp [LockKey.events]

theorem outcome_events (out : KeyOutcome) : Event.processLockTimers ∉ out.events := by
  cases out <;> simp [KeyOutcome.events]

/-- A seat in the middle of an event: the invariant holds, no event has come in, and a lock that
was there at the beginning is there. -/
structure Within (base seat : Seat) : Prop where
  inv : Inv seat
  whileActive : seat.whileActive = base.whileActive
  arrivals : seat.arrivals = base.arrivals
  active : base.active = true → seat.active = true

theorem Within.refl (h : Inv base) : Within base base := ⟨h, rfl, rfl, fun ha => ha⟩

theorem Within.handleLockKeyEvent (h : Within base seat) (meaning : KeyMeaning)
    (transition : KeyTransition) : Within base (seat.handleLockKeyEvent meaning transition) := by
  unfold Seat.handleLockKeyEvent
  split
  · obtain ⟨hl, ha⟩ := after_keeps h.inv.lock
      (lockKey_events (meaning.lockKey transition.keycode))
    exact ⟨⟨hl, h.inv.held, h.inv.arrived, h.inv.delivered⟩, h.whileActive, h.arrivals,
      fun hb => ha (h.active hb)⟩
  · exact h

theorem Within.handleKeyboardInput (h : Within base seat)
    (ha : arrival ∉ base.whileActive ∧ arrival < base.arrivals) (meaning : KeyMeaning)
    (transition : KeyTransition) :
    Within base (seat.handleKeyboardInput meaning arrival transition) := by
  unfold Seat.handleKeyboardInput
  split
  · obtain ⟨hl, hac⟩ := after_keeps h.inv.lock
      (outcome_events (meaning.outcome transition.keycode))
    refine ⟨⟨hl, h.inv.held, h.inv.arrived, fun other ho => ?_⟩, h.whileActive, h.arrivals,
      fun hb => hac (h.active hb)⟩
    dsimp only at ho ⊢
    split_ifs at ho
    · rcases mem_append.mp ho with ho | ho
      · exact h.inv.delivered other ho
      · cases mem_singleton.mp ho
        rw [h.whileActive, h.arrivals]
        exact ha
    · exact h.inv.delivered other ho
  · exact h

theorem Within.dispatchVuiEvent (h : Within base seat)
    (ha : base.active ∨ arrival ∉ base.whileActive ∧ arrival < base.arrivals) (meaning : KeyMeaning)
    (transition : KeyTransition) :
    Within base (seat.dispatchVuiEvent meaning arrival transition) := by
  unfold Seat.dispatchVuiEvent
  split_ifs with hac
  · exact h.handleLockKeyEvent meaning transition
  · rcases ha with hb | ha
    · exact absurd (h.active hb) hac
    · exact h.handleKeyboardInput ha meaning transition

/-- What holds of a seat through a list of transitions. -/
theorem within_foldl {f : Seat → KeyTransition → Seat} {transitions : List KeyTransition}
    (hf : ∀ seat, ∀ transition ∈ transitions, Within base seat → Within base (f seat transition))
    (h : Within base seat) : Within base (transitions.foldl f seat) := by
  induction transitions generalizing seat with
  | nil => exact h
  | cons transition transitions ih =>
    exact ih (fun seat other ho => hf seat other (mem_cons_of_mem _ ho))
      (hf seat transition mem_cons_self h)

theorem not_mem_whileActive (h : Inv seat) : seat.arrivals ∉ seat.whileActive :=
  fun hm => absurd (h.arrived _ hm) (lt_irrefl _)

theorem Inv.arrive (h : Inv seat) : Inv seat.arrive := by
  have hold : ∀ n, n ∉ seat.whileActive → n < seat.arrivals →
      n ∉ seat.arrive.whileActive ∧ n < seat.arrive.arrivals := by
    intro n hn hlt
    refine ⟨?_, lt_succ_of_lt hlt⟩
    unfold Seat.arrive
    dsimp only
    split_ifs
    · intro hm
      rcases mem_append.mp hm with hm | hm
      · exact hn hm
      · exact absurd (mem_singleton.mp hm) hlt.ne
    · exact hn
  refine ⟨h.lock, fun k hk => ?_, fun n hn => ?_, fun n hn => ?_⟩
  · exact hold _ (h.held k hk).1 (h.held k hk).2
  · unfold Seat.arrive at hn ⊢
    dsimp only at hn ⊢
    split_ifs at hn
    · rcases mem_append.mp hn with hn | hn
      · exact lt_succ_of_lt (h.arrived n hn)
      · cases mem_singleton.mp hn
        exact lt_succ_self _
    · exact lt_succ_of_lt (h.arrived n hn)
  · exact hold n (h.delivered n hn).1 (h.delivered n hn).2

/-- An event that comes while the session is unlocked is not among those of the lock screen. -/
theorem arrived_unlocked (h : Inv seat) (ha : seat.active = false) :
    seat.arrivals ∉ seat.arrive.whileActive ∧ seat.arrivals < seat.arrive.arrivals := by
  refine ⟨?_, lt_succ_self _⟩
  unfold Seat.arrive
  dsimp only
  rw [if_neg (by simp [ha])]
  exact not_mem_whileActive h

theorem Inv.filterPhysicalKeyEvent (h : Inv seat) {kc : ℕ} {st : KeyState} {role : KeyRole}
    (ha : (st = .pressed ∧ seat.filter.holds kc seat.world.now) →
      arrival ∉ seat.whileActive ∧ arrival < seat.arrivals) :
    Within seat (seat.filterPhysicalKeyEvent arrival kc st role).1 := by
  refine ⟨⟨h.lock, fun k hk => ?_, h.arrived, h.delivered⟩, rfl, rfl, fun hac => hac⟩
  unfold Seat.filterPhysicalKeyEvent at hk ⊢
  dsimp only at hk ⊢
  by_cases hp : k ∈ seat.filter.pending
  · rw [if_pos hp]
    exact h.held k hp
  · rw [if_neg hp, if_pos hk]
    rcases mem_pending_process hk with hold | ⟨-, hs, hh⟩
    · exact absurd hold hp
    · exact ha ⟨hs, hh⟩

/-- A key leaves the session locked if it was, and the invariant as it is. -/
theorem within_handleKey (h : Inv seat) (meaning : KeyMeaning) (kc : ℕ) (st : KeyState)
    (role : KeyRole) : Within seat.arrive (seat.handleKey meaning kc st role) := by
  unfold Seat.handleKey
  dsimp only
  split_ifs with hac
  · exact (Within.refl h.arrive).handleLockKeyEvent meaning ⟨kc, st⟩
  · have ha := arrived_unlocked h (by simpa using hac)
    exact within_foldl (fun _ transition _ hs =>
      hs.handleKeyboardInput ha meaning transition)
      (h.arrive.filterPhysicalKeyEvent fun _ => ha)

theorem within_dispatchVuiInput (h : Inv seat) {meaning : KeyMeaning} {kc : ℕ}
    {st : KeyState} {role : KeyRole}
    (hok : HoldsNothing seat (.vulkanKey meaning kc st role)) :
    Within seat.arrive (seat.dispatchVuiInput meaning kc st role) := by
  have har : seat.active = false →
      seat.arrivals ∉ seat.arrive.whileActive ∧ seat.arrivals < seat.arrive.arrivals :=
    arrived_unlocked h
  unfold Seat.dispatchVuiInput
  refine within_foldl (fun seat' transition _ hse =>
    hse.dispatchVuiEvent ?_ meaning transition) (h.arrive.filterPhysicalKeyEvent ?_)
  · by_cases ha : seat.active
    · exact .inl ha
    · exact .inr (har (by simpa using ha))
  · rintro ⟨hs, hh⟩
    refine har ?_
    by_contra ha
    exact hok ⟨by simpa using ha, hs, hh⟩

theorem within_tickKeyboardAccessibility (h : Inv seat) (meaning : KeyMeaning) :
    Within seat (seat.tickKeyboardAccessibility meaning) := by
  unfold Seat.tickKeyboardAccessibility
  split_ifs with ha
  · exact .refl h
  · obtain ⟨hp, he⟩ :=
      tick_spec seat.filter seat.world.now
    refine within_foldl (fun seat' transition ht hs =>
      hs.handleKeyboardInput (h.held _ (he transition ht)) meaning transition) ?_
    exact ⟨⟨h.lock, fun k hk => h.held k (hp k hk), h.arrived, h.delivered⟩, rfl, rfl, fun hl => hl⟩

theorem within_handleInput (h : Inv seat) (ev : InputEvent) (forwarded : Bool) :
    Within seat.arrive (seat.handleInput ev forwarded) := by
  have ha := h.arrive
  unfold Seat.handleInput
  dsimp only
  split_ifs with hac hr hf
  · have ht : Event.processLockTimers ∉ [Event.togglePasswordVisibility] := by simp
    obtain ⟨hlo, hk⟩ := after_keeps h.lock ht
    exact ⟨⟨hlo, ha.held, ha.arrived, ha.delivered⟩, rfl, rfl, hk⟩
  · exact .refl ha
  · refine ⟨⟨h.lock, ha.held, ha.arrived, fun other ho => ?_⟩, rfl, rfl,
      fun hl => hl⟩
    rcases mem_append.mp ho with ho | ho
    · exact ha.delivered other ho
    · cases mem_singleton.mp ho
      exact arrived_unlocked h (by simpa using hac)
  · exact .refl ha

theorem inv_step (hs : seat.step ev = some next) (hwr : NoWrap seat ev) (hok : HoldsNothing seat ev)
    (h : Inv seat) :
    Inv next ∧ (seat.active → next.active = false →
      seat.world.desktop.locks ∈ seat.world.accepted) := by
  have hl : ∀ {base}, Within base next → base.active = seat.active →
      seat.active → next.active = false →
      seat.world.desktop.locks ∈ seat.world.accepted := by
    intro base hw hb ha hu
    rw [hw.active (hb.trans ha)] at hu
    cases hu
  cases ev with
  | session ev =>
    obtain ⟨world, hwo, rfl⟩ := Option.map_eq_some_iff.mp hs
    obtain ⟨hlo, he⟩ := World.lockInv_step hwo (fun _ => hwr) h.lock
    exact ⟨⟨hlo, h.held, h.arrived, h.delivered⟩, fun ha hu =>
      (he ha hu).2⟩
  | key meaning kc st role =>
    cases hs
    have hw := within_handleKey h meaning kc st role
    exact ⟨hw.inv, hl hw rfl⟩
  | vulkanKey meaning kc st role =>
    cases hs
    have hw := within_dispatchVuiInput h hok
    exact ⟨hw.inv, hl hw rfl⟩
  | input ev forwarded =>
    cases hs
    have hw := within_handleInput h ev forwarded
    exact ⟨hw.inv, hl hw rfl⟩
  | tick meaning =>
    cases hs
    have hw := within_tickKeyboardAccessibility h meaning
    exact ⟨hw.inv, hl hw rfl⟩

/-- While the generation counter does not come round and slow keys hold back no press that comes
to the raw Vulkan backend on the lock screen, a lock ends only after a thread has answered true
for a password of that lock, and no client gets what came while the lock screen was shown. -/
theorem lock_screen_safe (outputs : Outputs) (config : KeyboardAccessibilitySettings)
    (events : List SeatEvent) (hwrap : Meets step NoWrap (start outputs config) events)
    (hmeets : Meets step HoldsNothing (start outputs config) events) :
    Meets step LockSafe (start outputs config) events := by
  have hs : Inv (start outputs config) :=
    ⟨⟨rfl, by rintro _ ⟨⟩, by rintro _ ⟨⟩, by rintro _ ⟨⟩⟩,
      by simp [start, new], by rintro _ ⟨⟩, by rintro _ ⟨⟩⟩
  generalize start outputs config = seat at hs hwrap hmeets ⊢
  induction events generalizing seat with
  | nil => trivial
  | cons ev events ih =>
    refine ⟨⟨fun next hn => (inv_step hn hwrap.1 hmeets.1 hs).2, ?_⟩, ?_⟩
    · intro next hn arrival ha
      exact ((inv_step hn hwrap.1 hmeets.1 hs).1.delivered arrival ha).1
    · intro next hn
      exact ih next (inv_step hn hwrap.1 hmeets.1 hs).1 (hwrap.2 next hn) (hmeets.2 next hn)

def slowKeysConfig : KeyboardAccessibilitySettings := { KeyboardAccessibilitySettings.default with
  slowKeys := true }

/-- Every key is the letter a to the lock screen and goes to the client after it. -/
def plainKeys : KeyMeaning := { lockKey := fun _ => .text ['a'], outcome := fun _ => .forwarded }

/-- The password is typed on the lock screen of the raw Vulkan backend, and a key is pressed and
kept down while the accepted password is shown. -/
def heldAcrossUnlock : List SeatEvent :=
  [.session .lockSession, .session (.pushChar 'a'), .session (.submitLockPassword true),
    .session (.workerReturns 0 true), .session .processLockTimers,
    .vulkanKey plainKeys 38 .pressed .other, .session (.advance lockPulseDuration),
    .session .processLockTimers]

theorem held_key_reaches_client :
    ¬ ∀ outputs config events, Meets step NoWrap (start outputs config) events →
      Meets step LockSafe (start outputs config) events := by
  intro ha
  have hw : Meets step NoWrap (start ⟨[], .nil⟩ slowKeysConfig)
      (heldAcrossUnlock ++ [.tick plainKeys]) :=
    (exists_run_of_checked (p := fun _ => true) (by decide)).1
  have he : (run step (start ⟨[], .nil⟩ slowKeysConfig) heldAcrossUnlock).any (fun seat =>
      decide (0 ∈ (seat.tickKeyboardAccessibility plainKeys).delivered) &&
        decide (0 ∈ (seat.tickKeyboardAccessibility plainKeys).whileActive)) = true := by decide
  obtain ⟨seat, hr, he⟩ := exists_run_of_any he
  simp only [Bool.and_eq_true, decide_eq_true_eq] at he
  have hl := (meets_append (ha _ _ _ hw) hr).2.1
  exact hl.delivered _ rfl 0 he.1 he.2

/-- On another backend the same keys stay on the lock screen. -/
def heldOnLockScreen : List SeatEvent :=
  [.session .lockSession, .session (.pushChar 'a'), .session (.submitLockPassword true),
    .session (.workerReturns 0 true), .session .processLockTimers,
    .key plainKeys 38 .pressed .other, .session (.advance lockPulseDuration),
    .session .processLockTimers, .tick plainKeys]

theorem held_key_stays :
    Meets step LockSafe (start ⟨[], .nil⟩ slowKeysConfig) heldOnLockScreen :=
  lock_screen_safe ⟨[], .nil⟩ slowKeysConfig heldOnLockScreen
    (exists_run_of_checked (p := fun _ => true) (by decide)).1
    (exists_run_of_checked (p := fun _ => true) (by decide)).1

end Seat

end FocalDesk.Session
