import FocalDesk.Connector.Registry
import FocalDesk.Integer
import FocalDesk.Library.Transition
import Mathlib.Algebra.Order.Ring.Nat
import Std.Data.ExtTreeSet

/-! The connector host: what it keeps of each connector, and how it supervises their runs. -/
namespace FocalDesk.Connector
open Library

def builtinPollSeconds : ℕ := 15

def quarantineFailures : ℕ := 5

/-- The connector whose runs the host leaves to another supervisor. -/
def workflowEvents : String := "workflow-events"

/-- The texts of the state of a connector. -/
inductive RuntimeState where
  | ready
  | disabled
  | running
  | idle
  | quarantined
  | backoff
  | delegatedToAiSupervisor
  | waitingForSourceConsent
deriving DecidableEq

structure ConnectorRuntimeStatus where
  connectorId : String
  state : RuntimeState
  consecutiveFailures : ℕ
  quarantined : Bool
  lastRunAtUnix : Option ℕ
  nextRunAtUnix : Option ℕ
  lastDurationMs : Option ℕ
  lastError : Option String
  deliveredEvents : ℕ

structure ManagedRuntime where
  status : Option ConnectorRuntimeStatus
  lastSeen : Std.ExtTreeSet String compare
  forcePoll : Bool

def ManagedRuntime.default : ManagedRuntime := ⟨none, ∅, false⟩

structure HostState where
  paused : Bool
  runtimes : BTreeMap String ManagedRuntime

def HostState.default : HostState := ⟨false, ∅⟩

structure EventFabricSnapshot where
  connected : Bool
  policies : List EventSourcePolicy

def runtimeStatus (connector : ConnectorStatus) : ConnectorRuntimeStatus where
  connectorId := connector.manifest.id
  state := if connector.enabled then .ready else .disabled
  consecutiveFailures := 0
  quarantined := false
  lastRunAtUnix := none
  nextRunAtUnix := if connector.enabled then some 0 else none
  lastDurationMs := none
  lastError := none
  deliveredEvents := 0

/-- The status of a runtime, made when there is none. -/
def ManagedRuntime.statusOf (runtime : ManagedRuntime) (connector : ConnectorStatus) :
    ConnectorRuntimeStatus :=
  runtime.status.getD (runtimeStatus connector)

/-! What the registry says. -/

def reconcileRuntime (connector : ConnectorStatus) (runtime : ManagedRuntime) : ManagedRuntime :=
  let status := runtime.statusOf connector
  { runtime with
    status :=
      if connector.enabled = false then
        some { status with
          state := .disabled
          nextRunAtUnix := none
          quarantined := false
          consecutiveFailures := 0 }
      else if status.state = .disabled then
        some { status with state := .ready, nextRunAtUnix := some 0 }
      else some status }

def reconcileEntry (runtimes : BTreeMap String ManagedRuntime) (connector : ConnectorStatus) :
    BTreeMap String ManagedRuntime :=
  runtimes.insert connector.manifest.id
    (reconcileRuntime connector (runtimes[connector.manifest.id]?.getD .default))

def reconcileState (state : HostState) (connectors : List ConnectorStatus) : HostState :=
  let known := connectors.map fun connector => connector.manifest.id
  { state with
    runtimes := connectors.foldl reconcileEntry (state.runtimes.filter fun id _ => id ∈ known) }

/-! What a run leaves. -/

def pollInterval (connector : ConnectorStatus) : ℕ :=
  if connector.manifest.id = "google-calendar" ∨ connector.manifest.id = "microsoft-calendar" then
    300
  else
    match connector.manifest.runtime with
    | none => builtinPollSeconds
    | some runtime => runtime.pollIntervalSeconds

def finishStatus (status : ConnectorRuntimeStatus) (connector : ConnectorStatus)
    (now durationMs : ℕ) (result : Except String ℕ) : ConnectorRuntimeStatus :=
  let status :=
    { status with
      lastRunAtUnix := some now
      lastDurationMs := some (min durationMs (2 ^ 64 - 1)) }
  match result with
  | .ok delivered =>
    { status with
      state := .idle
      consecutiveFailures := 0
      lastError := none
      deliveredEvents := saturatingAdd status.deliveredEvents delivered
      nextRunAtUnix := some (saturatingAdd now (pollInterval connector)) }
  | .error error =>
    let failures := min (status.consecutiveFailures + 1) (2 ^ 32 - 1)
    let quarantined := decide (quarantineFailures ≤ failures)
    let backoff := min (5 * 2 ^ min failures 6) 300
    { status with
      consecutiveFailures := failures
      lastError := some (String.ofList (error.toList.take 500))
      quarantined
      state := if quarantined then .quarantined else .backoff
      nextRunAtUnix := if quarantined then none else some (saturatingAdd now backoff) }

def finishRun (state : HostState) (connector : ConnectorStatus) (now durationMs : ℕ)
    (result : Except String ℕ) : HostState :=
  let runtime := state.runtimes[connector.manifest.id]?.getD .default
  { state with
    runtimes := state.runtimes.insert connector.manifest.id
      { runtime with
        forcePoll := false
        status := some (finishStatus (runtime.statusOf connector) connector now durationMs
          result) } }

/-- Changes the status of a connector, when there is one. -/
def HostState.modifyStatus (state : HostState) (connectorId : String)
    (change : ConnectorRuntimeStatus → ConnectorRuntimeStatus) : HostState :=
  { state with
    runtimes := state.runtimes.modify connectorId fun runtime =>
      { runtime with status := runtime.status.map change } }

def markRunning (state : HostState) (connectorId : String) : HostState :=
  state.modifyStatus connectorId fun status => { status with state := .running }

def setDelegated (state : HostState) (connectorId : String) : HostState :=
  state.modifyStatus connectorId fun status =>
    { status with state := .delegatedToAiSupervisor, nextRunAtUnix := none }

def setWaitingForConsent (state : HostState) (connectorId : String) : HostState :=
  state.modifyStatus connectorId fun status =>
    { status with state := .waitingForSourceConsent, nextRunAtUnix := none }

/-! Whether a connector is run. -/

def sourceEnabled (fabric : EventFabricSnapshot) (source : EventSource) : Bool :=
  fabric.policies.any fun policy => policy.source = source && policy.enabled

/-- The consent to one of the sources of a connector. -/
def consented (fabric : EventFabricSnapshot) (connector : ConnectorStatus) : Bool :=
  connector.manifest.eventSources.any (sourceEnabled fabric)

def ManagedRuntime.quarantined (runtime : ManagedRuntime) : Bool :=
  runtime.status.any fun status => status.quarantined

def ManagedRuntime.due (runtime : ManagedRuntime) (now : ℕ) : Bool :=
  !runtime.quarantined &&
    (runtime.forcePoll ||
      (runtime.status.bind fun status => status.nextRunAtUnix).all fun next => next ≤ now)

namespace HostState

def due (state : HostState) (connectorId : String) (now : ℕ) : Bool :=
  state.runtimes[connectorId]?.any fun runtime => runtime.due now

def quarantined (state : HostState) (connectorId : String) : Bool :=
  state.runtimes[connectorId]?.any ManagedRuntime.quarantined

/-- A connector that the host itself runs: consent is there and it is not quarantined. -/
def runnable (host : HostState) (fabric : EventFabricSnapshot) (connector : ConnectorStatus) :
    Bool :=
  connector.enabled && connector.manifest.id ≠ workflowEvents && consented fabric connector &&
    !host.quarantined connector.manifest.id

end HostState

/-! The requests. -/

inductive ConnectorHostIpcRequest where
  | setPaused (paused : Bool)
  | pollNow (connectorId : Option String)
  | clearQuarantine (connectorId : String)

structure ConnectorHostIpcResponse where
  status : String
  message : Option String
  paused : Bool
  connectors : List ConnectorRuntimeStatus

def pollRuntime (runtime : ManagedRuntime) : ManagedRuntime :=
  { runtime with
    forcePoll := true
    status := runtime.status.map fun status =>
      if status.quarantined then status else { status with nextRunAtUnix := some 0 } }

def clearedStatus (status : ConnectorRuntimeStatus) : ConnectorRuntimeStatus :=
  { status with
    quarantined := false
    consecutiveFailures := 0
    state := .ready
    nextRunAtUnix := some 0
    lastError := none }

def respond (state : HostState) (message : Option String) : HostState × ConnectorHostIpcResponse :=
  (state, {
    status := if message.isSome then "error" else "ok"
    message
    paused := state.paused
    connectors := (state.runtimes.toList.map Prod.snd).filterMap fun runtime => runtime.status })

def applyControlRequest (state : HostState) :
    ConnectorHostIpcRequest → HostState × ConnectorHostIpcResponse
  | .setPaused paused => respond { state with paused } none
  | .pollNow connectorId =>
    respond { state with
      runtimes := state.runtimes.map fun id runtime =>
        if connectorId.all (· = id) then pollRuntime runtime else runtime } none
  | .clearQuarantine connectorId =>
    if connectorId ∈ state.runtimes then
      respond (state.modifyStatus connectorId clearedStatus) none
    else respond state (some ("unknown connector runtime: " ++ connectorId))

/-! The supervisor, one lock at a time. -/

inductive Supervisor where
  | idle
  | ticking (now : ℕ) (fabric : EventFabricSnapshot) (rest : List ConnectorStatus)
  | starting (now : ℕ) (fabric : EventFabricSnapshot) (connector : ConnectorStatus)
      (rest : List ConnectorStatus)
  | running (now : ℕ) (fabric : EventFabricSnapshot) (connector : ConnectorStatus)
      (rest : List ConnectorStatus)

/-- What happened, for the statements about runs. -/
inductive Happening where
  | refreshed (connectors : List ConnectorStatus)
  | requested (connectorId : Option String)
  | cleared (connectorId : String)
  | ticked (runnable : List String)
  | started (connectorId : String)
  | finished (connectorId : String) (ok : Bool)
  | rested

/-- The host with the last refresh, and what happened, the last first. -/
structure System where
  host : HostState
  connectors : List ConnectorStatus
  fabric : Option EventFabricSnapshot
  supervisor : Supervisor
  log : List Happening

def System.initial : System := ⟨.default, [], none, .idle, []⟩

inductive Event where
  | refresh (connectors : List ConnectorStatus) (fabric : EventFabricSnapshot)
  | control (request : ConnectorHostIpcRequest)
  | tick (now : ℕ)
  | consider
  | start
  | finish (durationMs : ℕ) (result : Except String ℕ)

def ConnectorHostIpcRequest.happenings : ConnectorHostIpcRequest → List Happening
  | .setPaused _ => []
  | .pollNow connectorId => [.requested connectorId]
  | .clearQuarantine connectorId => [.cleared connectorId]

def step (s : System) : Event → Option System
  | .refresh connectors fabric =>
    match s.supervisor with
    | .idle => some { s with
        host := reconcileState s.host connectors
        connectors
        fabric := some fabric
        log := .refreshed connectors :: s.log }
    | _ => none
  | .control request => some { s with
      host := (applyControlRequest s.host request).1
      log := request.happenings ++ s.log }
  | .tick now =>
    match s.supervisor, s.fabric with
    | .idle, some fabric =>
      if s.host.paused || !fabric.connected then some s
      else some { s with
        supervisor := .ticking now fabric (s.connectors.filter fun connector => connector.enabled)
        log := .ticked ((s.connectors.filter (s.host.runnable fabric)).map
          fun connector => connector.manifest.id) :: s.log }
    | _, _ => none
  | .consider =>
    match s.supervisor with
    | .ticking _ _ [] => some { s with supervisor := .idle, log := .rested :: s.log }
    | .ticking now fabric (connector :: rest) =>
      if connector.manifest.id = workflowEvents then some { s with
        host := setDelegated s.host connector.manifest.id
        supervisor := .ticking now fabric rest }
      else if consented fabric connector = false then some { s with
        host := setWaitingForConsent s.host connector.manifest.id
        supervisor := .ticking now fabric rest }
      else if s.host.due connector.manifest.id now then some { s with
        supervisor := .starting now fabric connector rest }
      else some { s with supervisor := .ticking now fabric rest }
    | _ => none
  | .start =>
    match s.supervisor with
    | .starting now fabric connector rest => some { s with
        host := markRunning s.host connector.manifest.id
        supervisor := .running now fabric connector rest
        log := .started connector.manifest.id :: s.log }
    | _ => none
  | .finish durationMs result =>
    match s.supervisor with
    | .running now fabric connector rest => some { s with
        host := finishRun s.host connector now durationMs result
        supervisor := .ticking now fabric rest
        log := .finished connector.manifest.id result.isOk :: s.log }
    | _ => none

end FocalDesk.Connector
