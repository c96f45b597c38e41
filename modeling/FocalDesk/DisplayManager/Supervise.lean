import FocalDesk.Library.Transition
import Mathlib.Logic.Function.Basic

/-! Greeter and session take turns on one VT: the loop, and the programs that it launches. -/
namespace FocalDesk.DisplayManager.Supervise
open Library Option Function Bool

/-! One launched program with its holder, and the thread that relays what the holder reports. -/

inductive HolderPhase where
  | opening
  | forked
  | waiting
  | reported
  | closed
  | dead
deriving DecidableEq

/-- A channel for one value: its sender may be gone without it. -/
inductive Slot where
  | empty
  | sent
  | gone
deriving DecidableEq

structure Launch where
  user : Bool
  program : Bool
  holder : HolderPhase
  pid : Bool
  status : Bool
  relay : Bool
  exit : Slot
  closed : Slot
deriving DecidableEq

inductive LaunchEvent where
  | holderFails
  | programForked
  | pidWritten
  | programExits
  | statusWritten
  | sessionCloses
  | holderDies
  | relayExit
  | relayGone
  | relayClosed
deriving DecidableEq

namespace Launch

def start (user : Bool) : Launch := ⟨user, false, .opening, false, false, false, .empty, .empty⟩

/-- A program that was not launched. -/
def absent : Launch := ⟨false, false, .dead, false, false, false, .empty, .empty⟩

def move (launch : Launch) : LaunchEvent → Option Launch
  | .holderFails =>
    if launch.holder = .opening then some { launch with holder := .dead } else none
  | .programForked =>
    if launch.holder = .opening then some { launch with holder := .forked, program := true }
    else none
  | .pidWritten =>
    if launch.holder = .forked then some { launch with holder := .waiting, pid := true } else none
  | .programExits => if launch.program then some { launch with program := false } else none
  | .statusWritten =>
    if launch.holder = .waiting ∧ launch.program = false then
      some { launch with holder := .reported, status := true }
    else none
  | .sessionCloses =>
    if launch.holder = .reported then some { launch with holder := .closed } else none
  | .holderDies =>
    if launch.holder = .forked ∨ launch.holder = .waiting ∨ launch.holder = .reported then
      some { launch with holder := .dead }
    else none
  | .relayExit =>
    if launch.relay ∧ launch.exit = .empty ∧ launch.status then some { launch with exit := .sent }
    else none
  | .relayGone =>
    if launch.relay ∧ launch.exit = .empty ∧ launch.status = false ∧ launch.holder = .dead then
      some { launch with exit := .gone, closed := .gone }
    else none
  | .relayClosed =>
    if launch.exit = .sent ∧ launch.closed = .empty ∧
        (launch.holder = .closed ∨ launch.holder = .dead) then
      some { launch with closed := .sent }
    else none

end Launch

/-! The loop. -/

/-- What comes after a session is closed. -/
inductive After where
  | greeter
  | session
  | stop
deriving DecidableEq

inductive Phase where
  | backoff
  | switching
  | opening (i : ℕ)
  | greeter (i : ℕ)
  | terminating (i : ℕ) (killed : Bool) (after : After)
  | closing (i : ℕ) (after : After)
  | pending
  | session (i : ℕ)
  | returned (ok : Bool)
deriving DecidableEq

structure Display where
  phase : Phase
  launches : ℕ → Launch
  count : ℕ

/-- The connection of the greeter is lost when accepting it, reading or decoding a request or
writing a response fails. -/
inductive Event where
  | slept
  | sigterm
  | switchFailed
  | refused
  | forked
  | started
  | startFailed
  | startBroken
  | authenticated
  | connectionLost
  | exited
  | timeout
  | closed
  | launch (i : ℕ) (event : LaunchEvent)
deriving DecidableEq

namespace Display

def start : Display := ⟨.backoff, fun _ => .absent, 0⟩

variable (display disp : Display)

def goTo (phase : Phase) : Display := { display with phase }

def setLaunch (i : ℕ) (launch : Launch) : Display :=
  { display with launches := Function.update display.launches i launch }

/-- A holder is forked for the next program. -/
def fork (user : Bool) : Display :=
  { display.setLaunch display.count (.start user) with
    phase := .opening display.count
    count := display.count + 1 }

/-- The program did not start. For the greeter this is an error, for a session not. -/
def giveUp (i : ℕ) : Display :=
  if (display.launches i).user then display.goTo .backoff else display.goTo (.returned false)

def afterClose : After → Phase
  | .greeter => .backoff
  | .session => .pending
  | .stop => .returned true

def step (display : Display) (event : Event) : Option Display :=
  match event, display.phase with
  | .launch i event, _ =>
    if i < display.count then ((display.launches i).move event).map (display.setLaunch i) else none
  | .slept, .backoff => some (display.goTo .switching)
  | .sigterm, .backoff => some (display.goTo (.returned true))
  | .switchFailed, .switching => some (display.goTo .backoff)
  | .refused, .switching => some (display.goTo (.returned false))
  | .forked, .switching => some (display.fork false)
  | .started, .opening i =>
    let launch := display.launches i
    if launch.pid then
      some ((display.setLaunch i { launch with relay := true }).goTo
        (if launch.user then .session i else .greeter i))
    else none
  | .startFailed, .opening i =>
    if (display.launches i).pid = false ∧ (display.launches i).holder = .dead then
      some (display.giveUp i)
    else none
  | .startBroken, .opening i => some (display.giveUp i)
  | .authenticated, .greeter i => some (display.goTo (.terminating i false .session))
  | .connectionLost, .greeter _ => some (display.goTo (.returned false))
  | .sigterm, .greeter i => some (display.goTo (.terminating i false .stop))
  | .exited, .greeter i =>
    if (display.launches i).exit = .empty then none else some (display.goTo (.closing i .greeter))
  | .timeout, .terminating i false after => some (display.goTo (.terminating i true after))
  | .exited, .terminating i _ after =>
    if (display.launches i).exit = .empty then none else some (display.goTo (.closing i after))
  | .closed, .closing i after =>
    if (display.launches i).closed = .empty then none
    else some (display.goTo (afterClose after))
  | .refused, .pending => some (display.goTo .backoff)
  | .forked, .pending => some (display.fork true)
  | .sigterm, .session i => some (display.goTo (.terminating i false .stop))
  | .exited, .session i =>
    if (display.launches i).exit = .empty then none else some (display.goTo (.closing i .greeter))
  | _, _ => none

end Display

/-! What holds of one launch as long as its holder does not die. -/

structure Sound (launch : Launch) : Prop where
  alive : launch.program = true → launch.holder = .forked ∨ launch.holder = .waiting
  pid : launch.pid = true →
    launch.holder = .waiting ∨ launch.holder = .reported ∨ launch.holder = .closed
  relay : launch.relay = true → launch.pid = true
  exit : launch.exit ≠ .gone
  closed : launch.closed ≠ .gone ∧ (launch.closed = .sent → launch.holder = .closed)
  holds : launch.exit = .sent → launch.holder = .reported ∨ launch.holder = .closed
  status : launch.status = true → launch.holder = .reported ∨ launch.holder = .closed

/-- The program has exited, and none will be forked. -/
def Launch.Quiet (launch : Launch) : Prop := launch.program = false ∧ launch.holder ≠ .opening

/-- The program has exited and the session is closed, or neither was there. -/
def Launch.Over (launch : Launch) : Prop :=
  launch.program = false ∧ (launch.holder = .closed ∨ launch.holder = .dead)

theorem Launch.Over.quiet {launch : Launch} (h : launch.Over) : launch.Quiet :=
  ⟨h.1, fun ho => by rcases h.2 with h | h <;> rw [h] at ho <;> cases ho⟩

variable {launch after : Launch} {event : LaunchEvent}

theorem sound_move (h : Sound launch) (hm : launch.move event = some after)
    (hl : event ≠ .holderDies) : Sound after := by
  obtain ⟨ha, hp, hre, he, hc, hh, hst⟩ := h
  unfold Launch.move at hm
  split at hm <;> split at hm <;> cases hm
  all_goals constructor <;> try simp_all
  -- The holder has exited after it reported the status.
  rename_i hs
  obtain hr | hd := hh
  · obtain hd | hdead := hs.2.2
    · exact hd
    · rw [hr] at hdead
      cases hdead
  · exact hd

theorem move_keeps (h : Sound launch) (hm : launch.move event = some after)
    (hl : event ≠ .holderDies) : after.user = launch.user ∧ after.relay = launch.relay ∧
      (launch.Quiet → after.Quiet) ∧ (launch.Over → after.Over) ∧
        (launch.holder = .closed → after.holder = .closed) := by
  obtain ⟨ha, hp, hr, he, hc, hh, hs⟩ := h
  unfold Launch.move at hm
  split at hm <;> split at hm <;> cases hm
  all_goals simp_all [Launch.Quiet, Launch.Over]

/-! The loop. -/

variable {display disp next : Display} {i j : ℕ}

/-- The launch that the loop waits for. -/
def Phase.current : Phase → Option ℕ
  | .opening i => some i
  | .greeter i => some i
  | .terminating i _ _ => some i
  | .closing i _ => some i
  | .session i => some i
  | _ => none

/-- What is known of the launch of a phase. It is the last one. -/
def Fits (launches : ℕ → Launch) (count : ℕ) : Phase → Prop
  | .opening i => i + 1 = count
  | .greeter i => i + 1 = count ∧ (launches i).relay = true ∧ (launches i).user = false
  | .terminating i _ after => i + 1 = count ∧ (launches i).relay = true ∧
    (after = .session → (launches i).user = false)
  | .closing i after => i + 1 = count ∧ (launches i).relay = true ∧
    (after = .session → (launches i).user = false)
  | .session i => i + 1 = count ∧ (launches i).relay = true
  | .pending => ∃ k, k + 1 = count ∧ (launches k).user = false ∧ (launches k).holder = .closed
  | .backoff => True
  | .switching => True
  | .returned _ => True

variable {ph : Phase}

theorem Fits.congr {launches launches' : ℕ → Launch} {count : ℕ}
    (h : Fits launches count ph) (hu : ∀ k, (launches' k).user = (launches k).user)
    (hr : ∀ k, (launches k).relay → (launches' k).relay)
    (hc : ∀ k, (launches k).holder = .closed → (launches' k).holder = .closed) :
    Fits launches' count ph := by
  cases ph with
  | opening i => exact h
  | greeter i => exact ⟨h.1, hr i h.2.1, (hu i).trans h.2.2⟩
  | terminating i killed after =>
    exact ⟨h.1, hr i h.2.1, fun ha => (hu i).trans (h.2.2 ha)⟩
  | closing i after =>
    exact ⟨h.1, hr i h.2.1, fun ha => (hu i).trans (h.2.2 ha)⟩
  | session i => exact ⟨h.1, hr i h.2⟩
  | pending =>
    obtain ⟨k, hk, hg, hd⟩ := h
    exact ⟨k, hk, (hu k).trans hg, hc k hd⟩
  | backoff => trivial
  | switching => trivial
  | returned ok => trivial

/-- The session of a user is launched after a greeter whose session is closed. -/
def AfterGreeter (display : Display) : Prop :=
  ∀ j < display.count, (display.launches j).user = true → ∃ k, k + 1 = j ∧
    (display.launches k).user = false ∧ (display.launches k).program = false ∧
      (display.launches k).holder = .closed

structure Exclusive (display : Display) : Prop where
  sound : ∀ i, Sound (display.launches i)
  others : ∀ i, display.phase.current ≠ some i → (display.launches i).Quiet
  ended : (∀ ok, display.phase ≠ .returned ok) →
    ∀ i, display.phase.current ≠ some i → (display.launches i).Over
  fits : Fits display.launches display.count display.phase
  greeters : AfterGreeter display

/-- No holder dies between the fork of its program and the end of its session, no failure hides a
program that is forked, and the connection of the greeter is lost only when it has exited. -/
def Steady (display : Display) : Event → Prop
  | .launch _ .holderDies => False
  | .startBroken => False
  | .connectionLost => ∀ i ∈ display.phase.current, (display.launches i).program = false
  | _ => True

/-- One launch changes, and keeps what it has reached. -/
theorem Exclusive.update (h : Exclusive disp) {after : Launch} (hso : Sound after)
    (hu : after.user = (disp.launches i).user) (hr : (disp.launches i).relay → after.relay)
    (hq : (disp.launches i).Quiet → after.Quiet) (hov : (disp.launches i).Over → after.Over)
    (hc : (disp.launches i).holder = .closed → after.holder = .closed) :
    Exclusive (disp.setLaunch i after) := by
  have hse : (disp.setLaunch i after).launches i = after := update_self _ _ _
  have ho : ∀ k, k ≠ i → (disp.setLaunch i after).launches k = disp.launches k :=
    fun k hne => update_of_ne hne _ _
  have ha : ∀ k, Sound ((disp.setLaunch i after).launches k) ∧
      ((disp.setLaunch i after).launches k).user = (disp.launches k).user ∧
      ((disp.launches k).relay → ((disp.setLaunch i after).launches k).relay) ∧
      ((disp.launches k).Quiet → ((disp.setLaunch i after).launches k).Quiet) ∧
      ((disp.launches k).Over → ((disp.setLaunch i after).launches k).Over) ∧
      ((disp.launches k).holder = .closed →
        ((disp.setLaunch i after).launches k).holder = .closed) := by
    intro k
    by_cases hs : k = i
    · subst hs
      rw [hse]
      exact ⟨hso, hu, hr, hq, hov, hc⟩
    · rw [ho k hs]
      exact ⟨h.sound k, rfl, id, id, id, id⟩
  refine ⟨fun k => (ha k).1, fun k hk => (ha k).2.2.2.1 (h.others k hk),
    fun hgo k hk => (ha k).2.2.2.2.1 (h.ended hgo k hk),
    h.fits.congr (fun k => (ha k).2.1) (fun k => (ha k).2.2.1) fun k => (ha k).2.2.2.2.2,
    fun j hj hu => ?_⟩
  rw [(ha j).2.1] at hu
  obtain ⟨k, hk, hg, hd, hh⟩ := h.greeters j hj hu
  have hn := (ha k).2.2.2.2.1 ⟨hd, .inl hh⟩
  exact ⟨k, hk, (ha k).2.1.trans hg, hn.1, (ha k).2.2.2.2.2 hh⟩

/-- The loop goes on, and does not wait for a launch that is not over. -/
theorem Exclusive.goTo (h : Exclusive disp) (hg : ∀ ok, disp.phase ≠ .returned ok)
    (hq : ∀ i, disp.phase.current = some i → ph.current ≠ some i → (disp.launches i).Quiet)
    (ho : (∀ ok, ph ≠ .returned ok) → ∀ i, disp.phase.current = some i →
      ph.current ≠ some i → (disp.launches i).Over)
    (hf : Fits disp.launches disp.count ph) : Exclusive (disp.goTo ph) := by
  refine ⟨h.sound, fun k hk => ?_, fun hn k hk => ?_, hf, h.greeters⟩
  · by_cases hc : disp.phase.current = some k
    · exact hq k hc hk
    · exact h.others k hc
  · by_cases hc : disp.phase.current = some k
    · exact ho hn k hc hk
    · exact h.ended hg k hc

theorem sound_start (user : Bool) : Sound (.start user) := by
  constructor <;> simp [Launch.start]

/-- A new program is launched when all others are over. -/
theorem Exclusive.fork (h : Exclusive disp) (hgo : ∀ ok, disp.phase ≠ .returned ok)
    (hn : disp.phase.current = none) {user : Bool} (hu : user →
      ∃ k, k + 1 = disp.count ∧ (disp.launches k).user = false ∧
        (disp.launches k).holder = .closed) : Exclusive (disp.fork user) := by
  have ha : ∀ k, (disp.launches k).Over := fun k => h.ended hgo k (by simp [hn])
  have hse : (disp.fork user).launches disp.count = .start user := update_self _ _ _
  have ho : ∀ k, k ≠ disp.count →
      (disp.fork user).launches k = disp.launches k :=
    fun k hne => update_of_ne hne _ _
  have hl : ∀ k, (disp.fork user).phase.current ≠ some k → k ≠ disp.count :=
    fun k hk hs => hk (congrArg some hs.symm)
  refine ⟨fun k => ?_, fun k hk => ?_, fun _ k hk => ?_, rfl, fun j hj hu' => ?_⟩
  · by_cases hs : k = disp.count
    · rw [hs, hse]
      exact sound_start user
    · rw [ho k hs]
      exact h.sound k
  · rw [ho k (hl k hk)]
    exact (ha k).quiet
  · rw [ho k (hl k hk)]
    exact ha k
  · by_cases hs : j = disp.count
    · rw [hs, hse] at hu'
      obtain ⟨k, hk, hg, hd⟩ := hu hu'
      have hne : k ≠ disp.count := by omega
      refine ⟨k, by omega, ?_⟩
      rw [ho k hne]
      exact ⟨hg, (ha k).1, hd⟩
    · have hlt : j < disp.count := Nat.lt_of_le_of_ne (Nat.le_of_lt_succ hj) hs
      rw [ho j hs] at hu'
      obtain ⟨k, hk, hg⟩ := h.greeters j hlt hu'
      have hne : k ≠ disp.count := by omega
      rw [← ho k hne] at hg
      exact ⟨k, hk, hg⟩

/-- The session of a launch is closed when its channel says so. -/
theorem Sound.closedOf {launch : Launch} (h : Sound launch) (hc : launch.closed ≠ .empty) :
    launch.holder = .closed := by
  cases hs : launch.closed with
  | empty => exact absurd hs hc
  | sent => exact h.closed.2 hs
  | gone => exact absurd hs h.closed.1

theorem Sound.isOver {launch : Launch} (h : Sound launch) (hc : launch.closed ≠ .empty) :
    launch.Over := by
  have hh := h.closedOf hc
  refine ⟨?_, .inl hh⟩
  by_contra ha
  obtain hf | hwaiting := h.alive (of_not_eq_false ha)
  · rw [hh] at hf
    cases hf
  · rw [hh] at hwaiting
    cases hwaiting

/-- The loop waits for the same launch, or for none. -/
theorem Exclusive.same (h : Exclusive disp) (hg : ∀ ok, disp.phase ≠ .returned ok)
    (hc : ∀ i, disp.phase.current = some i → ph.current = some i)
    (hf : Fits disp.launches disp.count ph) : Exclusive (disp.goTo ph) :=
  h.goTo hg (fun i hi hne => absurd (hc i hi) hne) (fun _ i hi hne => absurd (hc i hi) hne) hf

/-- The launch that the loop waited for is over. -/
theorem Exclusive.done (h : Exclusive disp) (hg : ∀ ok, disp.phase ≠ .returned ok)
    (hc : disp.phase.current = some i) (ho : (disp.launches i).Over)
    (hf : Fits disp.launches disp.count ph) :
    Exclusive (disp.goTo ph) := by
  have ha : ∀ k, disp.phase.current = some k → (disp.launches k).Over := by
    intro k hk
    obtain rfl : i = k := some.inj (hc.symm.trans hk)
    exact ho
  exact h.goTo hg (fun k hk _ => (ha k hk).quiet) (fun _ k hk _ => ha k hk) hf

theorem Exclusive.started (h : Exclusive disp) (hp : disp.phase = .opening i)
    (hpi : (disp.launches i).pid) :
    Exclusive ((disp.setLaunch i { disp.launches i with relay := true }).goTo
      (if (disp.launches i).user then .session i else .greeter i)) := by
  have hs := h.sound i
  have hr : Sound { disp.launches i with relay := true } :=
    ⟨hs.alive, hs.pid, fun _ => hpi, hs.exit, hs.closed, hs.holds, hs.status⟩
  have hup := h.update hr rfl (fun _ => rfl) id id id
  have hl : i + 1 = disp.count := by
    have hf := h.fits
    rw [hp] at hf
    exact hf
  have hse : Function.update disp.launches i { disp.launches i with relay := true } i =
      { disp.launches i with relay := true } := Function.update_self _ _ _
  refine hup.same (by simp [Display.setLaunch, hp]) (fun k hk => ?_) ?_
  · rw [show (disp.setLaunch i _).phase = .opening i from hp] at hk
    split <;> exact hk
  · cases hu : (disp.launches i).user with
    | true => exact ⟨hl, congrArg Launch.relay hse⟩
    | false =>
      exact ⟨hl, congrArg Launch.relay hse, (congrArg Launch.user hse).trans hu⟩

theorem exclusive_step {event : Event} (hs : disp.step event = some next)
    (hst : Steady disp event) (h : Exclusive disp) : Exclusive next := by
  have hf := h.fits
  unfold Display.step at hs
  split at hs
  · rename_i i event
    split at hs
    · obtain ⟨after, hm, rfl⟩ := map_eq_some_iff.mp hs
      have hl : event ≠ .holderDies := fun hd => by
        subst hd
        exact hst
      obtain ⟨hu, hr, hq, ho, hc⟩ := move_keeps (h.sound i) hm hl
      exact h.update (sound_move (h.sound i) hm hl) hu (fun hse => hr.trans hse) hq ho hc
    · cases hs
  -- The greeter has not been started yet.
  · rename_i hp
    cases hs
    exact h.same (by simp [hp]) (by simp [hp, Phase.current]) trivial
  · rename_i hp
    cases hs
    exact h.same (by simp [hp]) (by simp [hp, Phase.current]) trivial
  · rename_i hp
    cases hs
    exact h.same (by simp [hp]) (by simp [hp, Phase.current]) trivial
  · rename_i hp
    cases hs
    exact h.same (by simp [hp]) (by simp [hp, Phase.current]) trivial
  · rename_i hp
    cases hs
    exact h.fork (by simp [hp]) (by simp [hp, Phase.current]) nofun
  -- A program is opened.
  · rename_i i hp
    dsimp only at hs
    split at hs
    · rename_i hpi
      cases hs
      exact h.started hp hpi
    · cases hs
  · rename_i i hp
    split at hs
    · rename_i hfa
      cases hs
      have ho : (disp.launches i).Over := by
        refine ⟨?_, .inr hfa.2⟩
        by_contra ha
        have hh := (h.sound i).alive (of_not_eq_false ha)
        rw [hfa.2] at hh
        rcases hh with hh | hh <;> cases hh
      unfold Display.giveUp
      split
      · exact h.done (by simp [hp]) (by simp [hp, Phase.current]) ho trivial
      · exact h.done (by simp [hp]) (by simp [hp, Phase.current]) ho trivial
    · cases hs
  · exact hst.elim
  -- The greeter is on the VT.
  · rename_i i hp
    cases hs
    rw [hp] at hf
    exact h.same (by simp [hp]) (by simp [hp, Phase.current]) ⟨hf.1, hf.2.1, fun _ => hf.2.2⟩
  · rename_i i hp
    cases hs
    rw [hp] at hf
    have he := hst i (by simp [hp, Phase.current])
    have hq : (disp.launches i).Quiet := by
      refine ⟨he, fun hop => ?_⟩
      have hh := (h.sound i).pid ((h.sound i).relay hf.2.1)
      rw [hop] at hh
      rcases hh with hh | hh | hh <;> cases hh
    refine h.goTo (by simp [hp]) (fun k hk _ => ?_) (fun hn => absurd rfl (hn false)) trivial
    rw [hp] at hk
    cases hk
    exact hq
  · rename_i i hp
    cases hs
    rw [hp] at hf
    exact h.same (by simp [hp]) (by simp [hp, Phase.current]) ⟨hf.1, hf.2.1, nofun⟩
  · rename_i i hp
    split at hs
    · cases hs
    · cases hs
      rw [hp] at hf
      exact h.same (by simp [hp]) (by simp [hp, Phase.current]) ⟨hf.1, hf.2.1, nofun⟩
  -- A program is terminated, or its session is closed.
  · rename_i i after hp
    cases hs
    rw [hp] at hf
    exact h.same (by simp [hp]) (by simp [hp, Phase.current]) hf
  · rename_i i killed after hp
    split at hs
    · cases hs
    · cases hs
      rw [hp] at hf
      exact h.same (by simp [hp]) (by simp [hp, Phase.current]) hf
  · rename_i i after hp
    split at hs
    · cases hs
    · rename_i hc
      cases hs
      rw [hp] at hf
      have ho := (h.sound i).isOver hc
      refine h.done (by simp [hp]) (by simp [hp, Phase.current]) ho ?_
      cases after with
      | greeter => trivial
      | session => exact ⟨i, hf.1, hf.2.2 rfl, (h.sound i).closedOf hc⟩
      | stop => trivial
  -- The session of the user is opened.
  · rename_i hp
    cases hs
    exact h.same (by simp [hp]) (by simp [hp, Phase.current]) trivial
  · rename_i hp
    cases hs
    rw [hp] at hf
    exact h.fork (by simp [hp]) (by simp [hp, Phase.current]) fun _ => hf
  · rename_i i hp
    cases hs
    rw [hp] at hf
    exact h.same (by simp [hp]) (by simp [hp, Phase.current]) ⟨hf.1, hf.2, nofun⟩
  · rename_i i hp
    split at hs
    · cases hs
    · cases hs
      rw [hp] at hf
      exact h.same (by simp [hp]) (by simp [hp, Phase.current]) ⟨hf.1, hf.2, nofun⟩
  · cases hs

theorem exclusive_start : Exclusive .start := by
  have ha : Launch.absent.Over := ⟨rfl, .inr rfl⟩
  refine ⟨fun _ => ?_, fun _ _ => ha.quiet, fun _ _ _ => ha, trivial, nofun⟩
  constructor <;> simp [Display.start, Launch.absent]

/-- At most one program is alive, a session is launched after a greeter that has exited and whose
session is closed, and none is alive when the loop returns. -/
theorem programs_take_turns (events : List Event) (final : Display)
    (hevents : Meets Display.step Steady .start events)
    (hrun : run Display.step .start events = some final) :
    (∀ i j, (final.launches i).program = true → (final.launches j).program = true → i = j) ∧
      AfterGreeter final ∧
      ∀ ok, final.phase = .returned ok → ∀ i, (final.launches i).program = false := by
  have h := run_invariant_of_meets exclusive_step hevents hrun exclusive_start
  have hc : ∀ i, (final.launches i).program = true → final.phase.current = some i := by
    intro i ha
    by_contra ho
    rw [(h.others i ho).1] at ha
    cases ha
  refine ⟨fun i j hi hj => ?_, h.greeters, fun ok hr i => ?_⟩
  · exact some.inj ((hc i hi).symm.trans (hc j hj))
  · by_contra ha
    have hw := hc i (of_not_eq_false ha)
    rw [hr] at hw
    cases hw

/-! One login. -/

/-- A program is launched and runs. -/
def launches (i : ℕ) : List Event :=
  [.forked, .launch i .programForked, .launch i .pidWritten, .started]

/-- It exits, and its session is closed. -/
def exits (i : ℕ) : List Event :=
  [.launch i .programExits, .launch i .statusWritten, .launch i .relayExit, .exited,
    .launch i .sessionCloses, .launch i .relayClosed, .closed]

/-- A user logs in and out, and the display manager is stopped at the next greeter. -/
def logInAndOut : List Event :=
  [.slept] ++ launches 0 ++ [.authenticated] ++ exits 0 ++ launches 1 ++ exits 1 ++ [.slept] ++
    launches 2 ++ [.sigterm, .timeout] ++ exits 2

instance (display : Display) : (event : Event) → Decidable (Steady display event)
  | .launch _ .holderDies | .startBroken => isFalse id
  | .connectionLost => inferInstanceAs (Decidable (∀ i ∈ display.phase.current,
      (display.launches i).program = false))
  | .launch _ .holderFails | .launch _ .programForked | .launch _ .pidWritten
  | .launch _ .programExits | .launch _ .statusWritten | .launch _ .sessionCloses
  | .launch _ .relayExit | .launch _ .relayGone | .launch _ .relayClosed | .slept | .sigterm
  | .switchFailed | .refused | .forked | .started | .startFailed | .authenticated | .exited
  | .timeout | .closed => isTrue trivial

theorem log_in_takes_turns : ∃ final : Display,
    run Display.step .start logInAndOut = some final ∧ final.phase = .returned true ∧
      final.count = 3 ∧ AfterGreeter final ∧ ∀ i, (final.launches i).program = false := by
  have he : (checkedRun Display.step Steady .start logInAndOut).any (fun final =>
      decide (final.phase = .returned true ∧ final.count = 3)) = true := by decide +kernel
  obtain ⟨hm, final, hru, hf⟩ := exists_run_of_checked he
  obtain ⟨hr, hc⟩ := of_decide_eq_true hf
  obtain ⟨-, hg, hn⟩ := programs_take_turns logInAndOut final hm hru
  exact ⟨final, hru, hr, hc, hg, hn true hr⟩

/-- The greeter closes its connection. -/
def greeterLeft : List Event := [.slept] ++ launches 0 ++ [.connectionLost]

/-- The holder of the greeter dies, and the next greeter is launched. -/
def holderKilled : List Event :=
  [.slept] ++ launches 0 ++
    [.launch 0 .holderDies, .launch 0 .relayGone, .exited, .closed, .slept] ++ launches 1

/-- The loop returns while the greeter is alive, or launches a second one beside it. -/
theorem greeter_left_alive :
    (∃ final : Display, run Display.step .start greeterLeft = some final ∧
      final.phase = .returned false ∧ (final.launches 0).program = true) ∧
    ∃ final : Display, run Display.step .start holderKilled = some final ∧
      (final.launches 0).program = true ∧ (final.launches 1).program = true := by
  constructor
  · have he : (run Display.step .start greeterLeft).any (fun final =>
        decide (final.phase = .returned false ∧ (final.launches 0).program = true)) = true := by
      decide +kernel
    obtain ⟨final, hr, hf⟩ := exists_run_of_any he
    exact ⟨final, hr, of_decide_eq_true hf⟩
  · have he : (run Display.step .start holderKilled).any (fun final => decide
        ((final.launches 0).program = true ∧ (final.launches 1).program = true)) = true := by
      decide +kernel
    obtain ⟨final, hr, hf⟩ := exists_run_of_any he
    exact ⟨final, hr, of_decide_eq_true hf⟩

end FocalDesk.DisplayManager.Supervise
