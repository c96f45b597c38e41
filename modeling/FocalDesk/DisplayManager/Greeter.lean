import FocalDesk.DisplayManager.Ipc
import FocalDesk.Library.Transition
import Mathlib.Logic.Function.Basic

/-! The greeter on the screen: its requests, and the threads in which PAM asks its questions. -/
namespace FocalDesk.DisplayManager
open Library

def promptCapacity : ℕ := 4

/-- A message of PAM, with its number among those of its transaction. -/
structure PamPrompt where
  number : ℕ
  style : AuthMessageStyle
  message : String
  reply : Bool

inductive Outcome where
  | success
  | failure (message : String)

/-- What is in the channel of the outcome: its sender may be gone without one. -/
inductive OutcomeSlot where
  | empty
  | sent (outcome : Outcome)
  | closed

inductive ThreadPhase where
  | running
  | asking (number : ℕ)
  | parked
  | ended
deriving DecidableEq

/-- One PAM transaction. The messages that it has sent are kept. -/
structure Thread where
  username : String
  phase : ThreadPhase
  prompts : List PamPrompt
  receiving : Bool
  outcome : OutcomeSlot
  emitted : List (AuthMessageStyle × String)

inductive GreeterPhase where
  | crashed
  | authenticated (transaction : ℕ)
  | shutdown
  | failed
  | panicked
deriving DecidableEq

/-- What happened, as far as the greeter or PAM can see it. -/
inductive Entry where
  | started (transaction : ℕ)
  | shown (transaction number : ℕ) (style : AuthMessageStyle) (message : String)
  | delivered (transaction number : ℕ) (text : String)
  | answered (transaction : ℕ) (response : Response)
  | busy
  | cancelled (transaction : ℕ)
deriving DecidableEq

structure Greeter where
  coming : List UInt8
  wire : List UInt8
  recv : Recv
  current : Option ℕ
  completed : Bool
  disabled : Bool
  pendingReply : Option (ℕ × ℕ)
  threads : ℕ → Thread
  count : ℕ
  result : Option GreeterPhase
  handled : List Request
  history : List Entry

inductive Event where
  | arrive (n : ℕ)
  | read (n : ℕ) (sent : Bool)
  | readFailed
  | prompt (sent : Bool)
  | outcome (sent : Bool)
  | outcomeGone
  | exited
  | sigterm
  | message (transaction : ℕ) (style : AuthMessageStyle) (text : String) (ask : Bool)
  | succeed (transaction : ℕ)
  | fail (transaction : ℕ) (message : String)
  | vanish (transaction : ℕ)
deriving DecidableEq

/-- The transaction whose thread goes on. -/
def Event.thread : Event → Option ℕ
  | .message transaction _ _ _ => some transaction
  | .succeed transaction => some transaction
  | .fail transaction _ => some transaction
  | .vanish transaction => some transaction
  | _ => none

namespace Thread

def start (username : String) : Thread := ⟨username, .running, [], true, .empty, []⟩

/-- A transaction that was not started. -/
def absent : Thread := ⟨"", .ended, [], false, .closed, []⟩

/-- The receivers are dropped. A question that is not answered fails, and so does a success. -/
def abandon (thread : Thread) : Thread :=
  { thread with
    receiving := false
    prompts := []
    phase :=
      match thread.phase with
      | .asking _ => .running
      | .parked => .ended
      | phase => phase }

/-- A message is sent when the channel has a place. Without a receiver it fails. -/
def tell (thread : Thread) (style : AuthMessageStyle) (text : String) (ask : Bool) :
    Option Thread :=
  if thread.phase ≠ .running then none
  else if thread.receiving = false then some thread
  else if promptCapacity ≤ thread.prompts.length then none
  else some { thread with
    phase := if ask then .asking thread.emitted.length else .running
    prompts := thread.prompts ++ [⟨thread.emitted.length, style, text, ask⟩]
    emitted := thread.emitted ++ [(style, text)] }

/-- The transaction ends. After a success the thread waits until it may open the session. -/
def finish (thread : Thread) (slot : OutcomeSlot) (phase : ThreadPhase) : Option Thread :=
  if thread.phase ≠ .running then none
  else if thread.receiving = false then some { thread with phase := .ended }
  else some { thread with phase, outcome := slot }

end Thread

namespace Greeter

/-- The greeter will write these bytes. -/
def start (coming : List UInt8) : Greeter where
  coming := coming
  wire := []
  recv := .start
  current := none
  completed := false
  disabled := false
  pendingReply := none
  threads := fun _ => .absent
  count := 0
  result := none
  handled := []
  history := []

variable (greeter : Greeter)

def setThread (transaction : ℕ) (thread : Thread) : Greeter :=
  { greeter with threads := Function.update greeter.threads transaction thread }

def log (entry : Entry) : Greeter := { greeter with history := entry :: greeter.history }

def leave (result : GreeterPhase) : Greeter := { greeter with result := some result }

/-- The loop begins again, with new futures. -/
def again : Greeter := { greeter with recv := .start, disabled := false }

/-- A response is written, or the loop ends with an error. -/
def send (sent : Bool) (entry : Entry) : Greeter :=
  if sent then greeter.log entry else greeter.leave .failed

/-- A sender for a reply is dropped, and the question fails. -/
def dropReply : Greeter :=
  match greeter.pendingReply with
  | none => greeter
  | some (transaction, number) =>
    let thread := greeter.threads transaction
    let greeter := { greeter with pendingReply := none }
    if thread.phase = .asking number then
      greeter.setThread transaction { thread with phase := .running }
    else greeter

/-- The two receivers and the sender for a reply are dropped. -/
def clear : Greeter :=
  match greeter.current with
  | none => greeter.dropReply
  | some transaction =>
    { greeter.dropReply with current := none, completed := false }.setThread transaction
      (greeter.dropReply.threads transaction).abandon

def answer (text : String) : Greeter :=
  match greeter.pendingReply with
  | none => greeter
  | some (transaction, number) =>
    let thread := greeter.threads transaction
    let greeter := { greeter with pendingReply := none }
    if thread.phase = .asking number then
      (greeter.setThread transaction { thread with phase := .running }).log
        (.delivered transaction number text)
    else greeter

def createSession (username : String) (sent : Bool) : Greeter :=
  match greeter.current with
  | some _ => greeter.send sent .busy
  | none => ({ greeter with
      current := some greeter.count
      completed := false
      count := greeter.count + 1 }.setThread greeter.count (.start username)).log
        (.started greeter.count)

def cancelSession : Greeter :=
  match greeter.current with
  | none => greeter.clear
  | some transaction => greeter.clear.log (.cancelled transaction)

def handle (request : Request) (sent : Bool) : Greeter :=
  let greeter := { greeter with handled := greeter.handled ++ [request] }
  match request with
  | .createSession username => greeter.createSession username sent
  | .postAuthResponse (some text) => greeter.answer text
  | .postAuthResponse none => greeter.dropReply
  | .cancelSession => greeter.cancelSession
  | .power _ => greeter

/-- The future of `recv` is polled, and the system has some bytes for it. -/
def readBytes (decode : List UInt8 → Option Request) (n : ℕ) (sent : Bool) : Option Greeter :=
  if 0 < n ∧ n ≤ greeter.recv.wanted ∧ n ≤ greeter.wire.length then
    let bytes := greeter.wire.take n
    let greeter := { greeter with wire := greeter.wire.drop n }
    match greeter.recv.read bytes with
    | .pending recv => some { greeter with recv }
    | .tooLarge => some (greeter.leave .failed)
    | .ready body =>
      match decode body with
      | none => some (greeter.leave .failed)
      | some request => some (greeter.handle request sent).again
  else none

/-- The next message of PAM is shown. -/
def showPrompt (sent : Bool) : Option Greeter :=
  match greeter.current with
  | none => none
  | some transaction =>
    let thread := greeter.dropReply.threads transaction
    match thread.prompts with
    | [] => none
    | prompt :: prompts =>
      some (send { greeter.dropReply.setThread transaction { thread with prompts } with
          pendingReply := if prompt.reply then some (transaction, prompt.number) else none }
        sent (.shown transaction prompt.number prompt.style prompt.message)).again

def takeOutcome (sent : Bool) : Option Greeter :=
  match greeter.current with
  | none => none
  | some transaction =>
    match (greeter.threads transaction).outcome with
    | .sent .success =>
      if sent then
        some ((greeter.log (.answered transaction .sessionStarted)).leave
          (.authenticated transaction))
      else some (greeter.leave .failed)
    | .sent (.failure message) =>
      if sent then
        some ((greeter.log (.answered transaction (.authError message))).clear).again
      else some (greeter.leave .failed)
    | _ => none

/-- The sender of the outcome is gone: the branch is given up until the loop begins again. A
receiver that has completed must not be polled. -/
def outcomeGone : Option Greeter :=
  match greeter.current with
  | none => none
  | some transaction =>
    match (greeter.threads transaction).outcome with
    | .closed =>
      if greeter.disabled then none
      else if greeter.completed then some (greeter.leave .panicked)
      else some { greeter with completed := true, disabled := true }
    | _ => none

/-- A thread goes on. -/
def runThread (transaction : ℕ) (f : Thread → Option Thread) : Option Greeter :=
  if transaction < greeter.count then
    (f (greeter.threads transaction)).map (greeter.setThread transaction)
  else none

def step (decode : List UInt8 → Option Request) (greeter : Greeter) (event : Event) :
    Option Greeter :=
  match event with
  | .arrive n =>
    some { greeter with
      wire := greeter.wire ++ greeter.coming.take n
      coming := greeter.coming.drop n }
  | .message transaction style text ask =>
    greeter.runThread transaction fun thread => thread.tell style text ask
  | .succeed transaction =>
    greeter.runThread transaction fun thread => thread.finish (.sent .success) .parked
  | .fail transaction message =>
    greeter.runThread transaction fun thread => thread.finish (.sent (.failure message)) .ended
  | .vanish transaction =>
    greeter.runThread transaction fun thread => thread.finish .closed .ended
  | event =>
    if greeter.result.isSome then none
    else
      match event with
      | .read n sent => greeter.readBytes decode n sent
      | .readFailed => some (greeter.leave .failed)
      | .prompt sent => greeter.showPrompt sent
      | .outcome sent => greeter.takeOutcome sent
      | .outcomeGone => greeter.outcomeGone
      | .exited => some (greeter.leave .crashed)
      | .sigterm => some (greeter.leave .shutdown)
      | _ => none

/-! What a step can do. -/

variable {greeter next : Greeter} {decode : List UInt8 → Option Request}

/-- The messages and the end of one thread. -/
inductive ThreadMoves (thread : Thread) : Event → Thread → Prop where
  | deaf (event : Event) (hphase : thread.phase = .running)
      (hreceiving : thread.receiving = false) : ThreadMoves thread event thread
  | told (transaction : ℕ) (style : AuthMessageStyle) (text : String) (ask : Bool)
      (hphase : thread.phase = .running) (hreceiving : thread.receiving = true) :
      ThreadMoves thread (.message transaction style text ask) { thread with
        phase := if ask then .asking thread.emitted.length else .running
        prompts := thread.prompts ++ [⟨thread.emitted.length, style, text, ask⟩]
        emitted := thread.emitted ++ [(style, text)] }
  | gone (event : Event) (hphase : thread.phase = .running)
      (hreceiving : thread.receiving = false) :
      ThreadMoves thread event { thread with phase := .ended }
  | succeeded (transaction : ℕ) (hphase : thread.phase = .running)
      (hreceiving : thread.receiving = true) : ThreadMoves thread (.succeed transaction)
        { thread with phase := .parked, outcome := .sent .success }
  | failed (transaction : ℕ) (message : String) (hphase : thread.phase = .running)
      (hreceiving : thread.receiving = true) : ThreadMoves thread (.fail transaction message)
        { thread with phase := .ended, outcome := .sent (.failure message) }
  | vanished (transaction : ℕ) (hphase : thread.phase = .running)
      (hreceiving : thread.receiving = true) : ThreadMoves thread (.vanish transaction)
        { thread with phase := .ended, outcome := .closed }

inductive Moves (decode : List UInt8 → Option Request) (greeter : Greeter) :
    Event → Greeter → Prop where
  | arrived (n : ℕ) : Moves decode greeter (.arrive n) { greeter with
      wire := greeter.wire ++ greeter.coming.take n, coming := greeter.coming.drop n }
  | thread (event : Event) (transaction : ℕ) (thread : Thread)
      (hevent : event.thread = some transaction) (hcount : transaction < greeter.count)
      (hmoves : ThreadMoves (greeter.threads transaction) event thread) :
      Moves decode greeter event (greeter.setThread transaction thread)
  | left (event : Event) (wire : List UInt8) (result : GreeterPhase)
      (hrunning : greeter.result = none)
      (hresult : result = .failed ∨ result = .crashed ∨ result = .shutdown) :
      Moves decode greeter event ({ greeter with wire }.leave result)
  | pending (n : ℕ) (sent : Bool) (recv : Recv) (hrunning : greeter.result = none)
      (hn : n ≤ greeter.recv.wanted)
      (hwire : n ≤ greeter.wire.length)
      (hread : greeter.recv.read (greeter.wire.take n) = .pending recv) :
      Moves decode greeter (.read n sent) { greeter with wire := greeter.wire.drop n, recv }
  | handled (n : ℕ) (sent : Bool) (body : List UInt8) (request : Request)
      (hrunning : greeter.result = none) (hn : n ≤ greeter.recv.wanted)
      (hwire : n ≤ greeter.wire.length)
      (hread : greeter.recv.read (greeter.wire.take n) = .ready body)
      (hdecode : decode body = some request) : Moves decode greeter (.read n sent)
        (handle { greeter with wire := greeter.wire.drop n } request sent).again
  | shown (sent : Bool) (transaction : ℕ) (prompt : PamPrompt) (prompts : List PamPrompt)
      (hrunning : greeter.result = none) (hcurrent : greeter.current = some transaction)
      (hprompts : (greeter.dropReply.threads transaction).prompts = prompt :: prompts) :
      Moves decode greeter (.prompt sent) (send
        { greeter.dropReply.setThread transaction
            { greeter.dropReply.threads transaction with prompts } with
          pendingReply := if prompt.reply then some (transaction, prompt.number) else none }
        sent (.shown transaction prompt.number prompt.style prompt.message)).again
  | succeeded (transaction : ℕ) (hrunning : greeter.result = none)
      (hcurrent : greeter.current = some transaction)
      (houtcome : (greeter.threads transaction).outcome = .sent .success) :
      Moves decode greeter (.outcome true) ((greeter.log
        (.answered transaction .sessionStarted)).leave (.authenticated transaction))
  | failed (transaction : ℕ) (message : String) (hrunning : greeter.result = none)
      (hcurrent : greeter.current = some transaction)
      (houtcome : (greeter.threads transaction).outcome = .sent (.failure message)) :
      Moves decode greeter (.outcome true)
        ((greeter.log (.answered transaction (.authError message))).clear).again
  | gone (transaction : ℕ) (hrunning : greeter.result = none)
      (hcurrent : greeter.current = some transaction)
      (houtcome : (greeter.threads transaction).outcome = .closed) :
      Moves decode greeter .outcomeGone { greeter with completed := true, disabled := true }
  | panicked (transaction : ℕ) (hrunning : greeter.result = none)
      (hcurrent : greeter.current = some transaction)
      (houtcome : (greeter.threads transaction).outcome = .closed) :
      Moves decode greeter .outcomeGone (greeter.leave .panicked)

theorem threadMoves_of_tell {th after : Thread} {tx : ℕ} {style : AuthMessageStyle}
    {text : String} {ask : Bool} (h : th.tell style text ask = some after) :
    ThreadMoves th (.message tx style text ask) after := by
  unfold Thread.tell at h
  split at h
  · cases h
  · rename_i hp
    rw [not_not] at hp
    split at h
    · rename_i hr
      cases h
      exact .deaf _ hp hr
    · rename_i hr
      split at h
      · cases h
      · cases h
        exact .told tx style text ask hp (Bool.eq_true_of_not_eq_false hr)

theorem threadMoves_of_finish {th after : Thread} {ev : Event} {slot : OutcomeSlot}
    {phase : ThreadPhase} (h : th.finish slot phase = some after)
    (hf : th.phase = .running → th.receiving →
      ThreadMoves th ev { th with phase, outcome := slot }) :
    ThreadMoves th ev after := by
  unfold Thread.finish at h
  split at h
  · cases h
  · rename_i hp
    rw [not_not] at hp
    split at h
    · rename_i hr
      cases h
      exact .gone ev hp hr
    · rename_i hr
      cases h
      exact hf hp (Bool.eq_true_of_not_eq_false hr)

theorem moves_of_runThread {ev : Event} {tx : ℕ} {f : Thread → Option Thread}
    (he : ev.thread = some tx)
    (h : greeter.runThread tx f = some next)
    (hm : ∀ after, f (greeter.threads tx) = some after →
      ThreadMoves (greeter.threads tx) ev after) : Moves decode greeter ev next := by
  unfold runThread at h
  split at h
  · rename_i hc
    obtain ⟨after, ha, rfl⟩ := Option.map_eq_some_iff.mp h
    exact .thread ev tx after he hc (hm after ha)
  · cases h

theorem moves_of_readBytes {n : ℕ} {sent : Bool} (hr : greeter.result = none)
    (h : greeter.readBytes decode n sent = some next) :
    Moves decode greeter (.read n sent) next := by
  unfold readBytes at h
  split at h
  · rename_i hg
    obtain ⟨-, hn, hw⟩ := hg
    dsimp only at h
    split at h
    · rename_i recv hre
      cases h
      exact .pending n sent recv hr hn hw hre
    · cases h
      exact .left _ _ _ hr (.inl rfl)
    · rename_i body hre
      split at h
      · cases h
        exact .left _ _ _ hr (.inl rfl)
      · rename_i request hd
        cases h
        exact .handled n sent body request hr hn hw hre hd
  · cases h

theorem moves_of_takeOutcome {sent : Bool} (hr : greeter.result = none)
    (h : greeter.takeOutcome sent = some next) : Moves decode greeter (.outcome sent) next := by
  unfold takeOutcome at h
  split at h
  · cases h
  · rename_i transaction hc
    split at h
    · rename_i ho
      cases sent with
      | true =>
        cases h
        exact .succeeded transaction hr hc ho
      | false =>
        cases h
        exact .left _ greeter.wire _ hr (.inl rfl)
    · rename_i message ho
      cases sent with
      | true =>
        cases h
        exact .failed transaction message hr hc ho
      | false =>
        cases h
        exact .left _ greeter.wire _ hr (.inl rfl)
    · cases h

theorem moves_of_outcomeGone (hr : greeter.result = none) (h : greeter.outcomeGone = some next)
    : Moves decode greeter .outcomeGone next := by
  unfold outcomeGone at h
  split at h
  · cases h
  · rename_i transaction hc
    split at h
    · rename_i ho
      split at h
      · cases h
      · split at h
        · cases h
          exact .panicked transaction hr hc ho
        · cases h
          exact .gone transaction hr hc ho
    · cases h

theorem moves_of_step {ev : Event} (h : greeter.step decode ev = some next) :
    Moves decode greeter ev next := by
  have hr : ∀ {res : Option Greeter},
      (if greeter.result.isSome then none else res) = some next →
        greeter.result = none ∧ res = some next := by
    intro res hrs
    split at hrs
    · cases hrs
    · rename_i hn
      exact ⟨Option.not_isSome_iff_eq_none.mp hn, hrs⟩
  cases ev with
  | arrive n =>
    cases h
    exact .arrived n
  | read n sent =>
    obtain ⟨hn, h⟩ := hr h
    exact moves_of_readBytes hn h
  | readFailed =>
    obtain ⟨hn, h⟩ := hr h
    cases h
    exact .left _ greeter.wire _ hn (.inl rfl)
  | prompt sent =>
    obtain ⟨hn, h⟩ := hr h
    unfold showPrompt at h
    split at h
    · cases h
    · rename_i tx hc
      dsimp only at h
      split at h
      · cases h
      · rename_i prompt prompts hpr
        cases h
        exact .shown sent tx prompt prompts hn hc hpr
  | outcome sent =>
    obtain ⟨hn, h⟩ := hr h
    exact moves_of_takeOutcome hn h
  | outcomeGone =>
    obtain ⟨hn, h⟩ := hr h
    exact moves_of_outcomeGone hn h
  | exited =>
    obtain ⟨hn, h⟩ := hr h
    cases h
    exact .left _ greeter.wire _ hn (.inr (.inl rfl))
  | sigterm =>
    obtain ⟨hn, h⟩ := hr h
    cases h
    exact .left _ greeter.wire _ hn (.inr (.inr rfl))
  | message tx style text ask =>
    dsimp only [step] at h
    exact moves_of_runThread rfl h fun _ ha => threadMoves_of_tell ha
  | succeed tx =>
    dsimp only [step] at h
    exact moves_of_runThread rfl h fun _ ha =>
      threadMoves_of_finish ha fun hp hre => .succeeded _ hp hre
  | fail tx message =>
    dsimp only [step] at h
    exact moves_of_runThread rfl h fun _ ha =>
      threadMoves_of_finish ha fun hp hre => .failed _ _ hp hre
  | vanish tx =>
    dsimp only [step] at h
    exact moves_of_runThread rfl h fun _ ha =>
      threadMoves_of_finish ha fun hp hre => .vanished _ hp hre

end Greeter

end FocalDesk.DisplayManager
