import FocalDesk.Capture.Broker
import FocalDesk.Library.Transition
import Mathlib.Logic.Function.Basic

/-! Capture sessions of local clients: the compositor, and two threads for each client. -/
namespace FocalDesk.Capture
open Library

def outboundQueueDepth : ℕ := 2

def maxFrameBytes : ℕ := 256 * 1024 * 1024

inductive Request where
  | startCapture (outputId : ℕ)
  | stopCapture (sessionId : ℕ)

structure DamageRect where
  x : ℕ
  y : ℕ
  width : ℕ
  height : ℕ
deriving DecidableEq

inductive PixelFormat where
  | rgba8888

structure FrameReady (S : Type) where
  sessionId : ℕ
  frameSerial : ℕ
  width : ℕ
  height : ℕ
  stride : ℕ
  len : ℕ
  format : PixelFormat
  scale : S
  transform : Transform
  fullRefresh : Bool
  damage : List DamageRect

inductive Event (S : Type) where
  | captureStarted (sessionId outputId width height : ℕ) (scale : S) (transform : Transform)
  | frameReady (frame : FrameReady S)
  | captureStopped (sessionId : ℕ)
  | error (message : String)

/-- An event, and a file with the pixels of a buffer. -/
structure RemoteOutbound (B S : Type) where
  event : Event S
  fd : Option B

/-- A client has a number, which stands for the sending end of its queue. -/
inductive RemoteCommand where
  | start (outputId client : ℕ)
  | disconnected (sessionId : ℕ)
  | stop (sessionId : ℕ)
deriving DecidableEq

structure RemoteSession where
  consumerId : ℕ
  outputId : ℕ
  outbound : ℕ

/-- Where the thread of a client is. It has the message that it writes in hand. -/
inductive Phase (B S : Type) where
  | reading
  | awaiting
  | refusing (message : RemoteOutbound B S)
  | greeting (sessionId : ℕ) (message : RemoteOutbound B S)
  | serving (sessionId : ℕ)
  | sending (sessionId : ℕ) (message : RemoteOutbound B S)
  | returned

/-- Where the reader of a client is. It is stopped when it has read the request to stop. -/
inductive Reader where
  | absent
  | running (sessionId : ℕ)
  | stopped (sessionId : ℕ)
  | ended
deriving DecidableEq

structure Client (B S : Type) where
  phase : Phase B S
  reader : Reader
  incoming : List (RemoteOutbound B S)
  received : List (RemoteOutbound B S)
  connected : Bool

/-- How it ends to write a message: it can be too large, or the connection broken. -/
inductive Written where
  | done
  | tooLarge
  | broken
deriving DecidableEq

structure Remote (B S : Type) where
  commands : List RemoteCommand
  sessions : List (ℕ × RemoteSession)
  nextSessionId : ℕ
  broker : OutputCaptureBroker B S
  outputs : ℕ → Option (CaptureGeometry S)
  published : ℕ → Option B
  clients : ℕ → Client B S
  accepted : ℕ

variable {B S : Type}

def Event.startedSession : Event S → Option ℕ
  | .captureStarted sessionId _ _ _ _ _ => some sessionId
  | _ => none

/-- The thread of the client ends after it. -/
def Event.terminal : Event S → Bool
  | .captureStopped _ => true
  | .error _ => true
  | _ => false

def CaptureError.message : CaptureError → String
  | .invalidQueueDepth requested =>
    s!"capture queue depth {requested} is outside the supported range 1..={maxCaptureQueueDepth}"
  | .unknownConsumer consumerId =>
    s!"unknown capture consumer CaptureConsumerId({consumerId})"

/-- Coordinates and sizes that are not negative. -/
def DamageRect.ofRectangle (rect : Rectangle) : Option DamageRect :=
  if 0 ≤ rect.x ∧ 0 ≤ rect.y ∧ 0 ≤ rect.width ∧ 0 ≤ rect.height then
    some ⟨rect.x.toNat, rect.y.toNat, rect.width.toNat, rect.height.toNat⟩
  else none

/-- The length of the pixels, unless they are too many or the system refuses. -/
def sealedMemfd (sealed : Bool) (len : ℕ) : Option ℕ :=
  if len ≤ maxFrameBytes ∧ sealed = true then some len else none

def frameMessage (sessionId len : ℕ) (frame : CaptureFrame B S) : RemoteOutbound B S where
  event := .frameReady
    { sessionId
      frameSerial := frame.serial
      width := frame.geometry.width.toNat
      height := frame.geometry.height.toNat
      stride := min (frame.geometry.width.toNat * 4) (2 ^ 32 - 1)
      len
      format := .rgba8888
      scale := frame.geometry.scale
      transform := frame.geometry.transform
      fullRefresh := frame.fullRefresh
      damage := frame.damage.filterMap DamageRect.ofRectangle }
  fd := some frame.buffer

namespace Client

/-- A client that is not there yet. -/
def absent : Client B S := ⟨.returned, .absent, [], [], false⟩

/-- The thread has not returned. -/
def alive (client : Client B S) : Bool :=
  match client.phase with
  | .returned => false
  | _ => true

/-- The queue is dropped with its receiving end. -/
def finish (client : Client B S) : Client B S := { client with phase := .returned, incoming := [] }

end Client

namespace Remote

def start (outputs : ℕ → Option (CaptureGeometry S)) : Remote B S where
  commands := []
  sessions := []
  nextSessionId := 1
  broker := .empty
  outputs := outputs
  published := fun _ => none
  clients := fun _ => .absent
  accepted := 0

variable (remote : Remote B S)

def setClient (c : ℕ) (client : Client B S) : Remote B S :=
  { remote with clients := Function.update remote.clients c client }

def send (command : RemoteCommand) : Remote B S :=
  { remote with commands := remote.commands ++ [command] }

inductive Sent where
  | ok
  | full
  | disconnected

/-- A message for a client, when its queue has a place. -/
def trySend (c : ℕ) (message : RemoteOutbound B S) : Remote B S × Sent :=
  let client := remote.clients c
  if client.alive = false then (remote, .disconnected)
  else if outboundQueueDepth ≤ client.incoming.length then (remote, .full)
  else (remote.setClient c { client with incoming := client.incoming ++ [message] }, .ok)

/-! The compositor. -/

def removeSession (sessionId : ℕ) : Remote B S :=
  match getKey sessionId remote.sessions with
  | none => remote
  | some session => { remote with
      sessions := removeKey sessionId remote.sessions
      broker := remote.broker.remove session.consumerId }

def startSession (outputId c : ℕ) : Remote B S :=
  match remote.outputs outputId with
  | none => (remote.trySend c ⟨.error s!"unknown output {outputId}", none⟩).1
  | some geometry =>
    let sessionId := remote.nextSessionId
    let remote := { remote with nextSessionId := saturatingAdd remote.nextSessionId 1 }
    match remote.broker.register outputId 2 with
    | .error error => (remote.trySend c ⟨.error error.message, none⟩).1
    | .ok (broker, consumerId) =>
      let sessions := putKey sessionId ⟨consumerId, outputId, c⟩ remote.sessions
      let started : Event S := .captureStarted sessionId outputId geometry.width.toNat
        geometry.height.toNat geometry.scale geometry.transform
      (trySend { remote with broker, sessions } c ⟨started, none⟩).1

def stopSession (sessionId : ℕ) : Remote B S :=
  match getKey sessionId remote.sessions with
  | none => remote
  | some session =>
    ((remote.removeSession sessionId).trySend session.outbound ⟨.captureStopped sessionId, none⟩).1

/-- The next command. The threads may send more of them before the one after it. -/
def drainCommand : Option (Remote B S) :=
  match remote.commands with
  | [] => none
  | command :: commands =>
    let remote := { remote with commands }
    match command with
    | .start outputId c => some (remote.startSession outputId c)
    | .disconnected sessionId => some (remote.removeSession sessionId)
    | .stop sessionId => some (remote.stopSession sessionId)

/-- The newest frame for one session. Says whether its client is gone. -/
def exportSession (readback : ℕ → Option ℕ) (sealed : ℕ → Bool) (sessionId : ℕ) :
    Remote B S × Bool :=
  match getKey sessionId remote.sessions with
  | none => (remote, false)
  | some session =>
    let taken := remote.broker.takeLatestFrame session.consumerId
    let remote := { remote with broker := taken.1 }
    match taken.2 with
    | none => (remote, false)
    | some frame =>
      match (readback sessionId).bind (sealedMemfd (sealed sessionId)) with
      | none => (remote, false)
      | some len =>
        match remote.trySend session.outbound (frameMessage sessionId len frame) with
        | (remote, .ok) => (remote, false)
        | (remote, .full) =>
          match remote.broker.requestFullRefresh session.consumerId with
          | .error _ => (remote, false)
          | .ok (broker, _) => ({ remote with broker }, false)
        | (remote, .disconnected) => (remote, true)

def exportFrames (readback : ℕ → Option ℕ) (sealed : ℕ → Bool) : Remote B S :=
  let exported := (remote.sessions.map Prod.fst).foldl
    (fun (exported : Remote B S × List ℕ) sessionId =>
      let next := exported.1.exportSession readback sealed sessionId
      (next.1, if next.2 then exported.2 ++ [sessionId] else exported.2))
    (remote, [])
  exported.2.foldl removeSession exported.1

/-! The threads. Connections are served one after the other. -/

def accept : Option (Remote B S) :=
  if remote.accepted = 0 ∨ (remote.clients (remote.accepted - 1)).alive = false then
    some { remote.setClient remote.accepted ⟨.reading, .absent, [], [], true⟩ with
      accepted := remote.accepted + 1 }
  else none

/-- The first request, or a failure to read it. -/
def request (c : ℕ) (request : Option Request) : Option (Remote B S) :=
  let client := remote.clients c
  match client.phase with
  | .reading =>
    match request with
    | none => some (remote.setClient c client.finish)
    | some (.stopCapture _) => some (remote.setClient c { client with
        phase := .refusing ⟨.error "first request must start capture", none⟩ })
    | some (.startCapture outputId) =>
      some ((remote.setClient c { client with phase := .awaiting, incoming := [] }).send
        (.start outputId c))
  | _ => none

/-- Someone holds the sending end of the queue of a client. -/
def hasSender (c : ℕ) : Bool :=
  remote.sessions.any (fun entry => entry.2.outbound = c) ||
    remote.commands.any fun command =>
      match command with
      | .start _ client => client = c
      | _ => false

/-- The thread ends with a last command. -/
def leave (c sessionId : ℕ) (client : Client B S) : Remote B S :=
  (remote.setClient c client.finish).send (.disconnected sessionId)

def recv (c : ℕ) : Option (Remote B S) :=
  let client := remote.clients c
  match client.phase, client.incoming with
  | .awaiting, message :: incoming =>
    match message.event.startedSession with
    | some sessionId =>
      some (remote.setClient c { client with phase := .greeting sessionId message, incoming })
    | none => some (remote.setClient c { client with phase := .refusing message, incoming })
  | .awaiting, [] => if remote.hasSender c then none else some (remote.setClient c client.finish)
  | .serving sessionId, message :: incoming =>
    some (remote.setClient c { client with phase := .sending sessionId message, incoming })
  | .serving sessionId, [] =>
    if remote.hasSender c then none else some (remote.leave c sessionId client)
  | _, _ => none

/-- The message in hand is written. After the first one the reader is spawned. -/
def write (c : ℕ) (written : Written) (spawned : Bool) : Option (Remote B S) :=
  let client := remote.clients c
  let failed : Client B S :=
    { client with connected := client.connected && written ≠ .broken }
  match client.phase with
  | .refusing message =>
    if written = .done then some (remote.setClient c
      (Client.finish { client with received := client.received ++ [message] }))
    else some (remote.setClient c failed.finish)
  | .greeting sessionId message =>
    if written = .done then some (remote.setClient c { client with
      phase := .serving sessionId
      reader := if spawned then .running sessionId else .absent
      received := client.received ++ [message] })
    else some (remote.leave c sessionId failed)
  | .sending sessionId message =>
    if written = .done then
      let client := { client with received := client.received ++ [message] }
      if message.event.terminal then some (remote.leave c sessionId client)
      else some (remote.setClient c { client with phase := .serving sessionId })
    else some (remote.leave c sessionId failed)
  | _ => none

/-- The reader reads a request or fails to. -/
def read (c : ℕ) (request : Option Request) : Option (Remote B S) :=
  let client := remote.clients c
  match client.reader with
  | .running sessionId =>
    match request with
    | some (.stopCapture requested) =>
      if requested = sessionId then
        some ((remote.setClient c { client with reader := .stopped sessionId }).send
          (.stop sessionId))
      else some remote
    | some (.startCapture _) => some remote
    | none =>
      some ((remote.setClient c { client with reader := .ended, connected := false }).send
        (.disconnected sessionId))
  | _ => none

end Remote

/-! Runs. -/

inductive RemoteEvent (B S : Type) where
  | accept
  | request (c : ℕ) (request : Option Request)
  | recv (c : ℕ)
  | write (c : ℕ) (written : Written) (spawned : Bool)
  | read (c : ℕ) (request : Option Request)
  | drainCommand
  | exportFrames (readback : ℕ → Option ℕ) (sealed : ℕ → Bool)
  | publish (outputId : ℕ) (buffer : B) (geometry : CaptureGeometry S) (damage : List Rectangle)
    (capturedAt : ℕ)
  | invalidateOutput (outputId : ℕ)
  | invalidateAll
  | setOutputs (outputs : ℕ → Option (CaptureGeometry S))

def Remote.step [BEq S] (remote : Remote B S) : RemoteEvent B S → Option (Remote B S)
  | .accept => remote.accept
  | .request c request => remote.request c request
  | .recv c => remote.recv c
  | .write c written spawned => remote.write c written spawned
  | .read c request => remote.read c request
  | .drainCommand => remote.drainCommand
  | .exportFrames readback sealed => some (remote.exportFrames readback sealed)
  | .publish outputId buffer geometry damage capturedAt => some { remote with
      broker := (remote.broker.publish outputId buffer geometry damage capturedAt).1
      published := Function.update remote.published outputId (some buffer) }
  | .invalidateOutput outputId =>
    some { remote with broker := remote.broker.invalidateOutput outputId }
  | .invalidateAll => some { remote with broker := remote.broker.invalidateAll }
  | .setOutputs outputs => some { remote with outputs }

end FocalDesk.Capture
