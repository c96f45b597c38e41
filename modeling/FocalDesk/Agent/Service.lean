import FocalDesk.Agent.Run

/-!
The part of the service that keeps agent runs: its tables, the updates of a run with
their persistence, registration with its capability lease, and the reload at start.
-/
namespace FocalDesk
open Library

def agentActionTtl : ℕ := 120

def maxPendingAgentActions : ℕ := 64

def maxRetainedAgentRuns : ℕ := 128

def maxCapabilityLeases : ℕ := 256

structure PendingAgentAction where
  runId : String
  leaseId : String
  action : AgentProposedAction
  expiresAt : ℕ

/-- Where a task that executes a run stands. While it runs, `polled` says whether the
agent is being polled and `calling` which tool call it waits for. -/
inductive ExecutionStage where
  | starting
  | permission
  | permitted
  | enqueuing
  | queued
  | admitted
  | running (polled : Bool) (calling : Option (String × Value))
  | finished (result : Except String AgentResponse)
  | publishing (response : AgentResponse)
  | returning
  | returned

structure Execution where
  request : AgentRequest
  /-- The lease the task found when it started. -/
  leaseId : String
  /-- The tool results of the agent so far. -/
  results : List AgentStepResult
  stage : ExecutionStage

inductive ConfirmationStage where
  | taken
  | prompting
  | approved
  | executing
  | resolving (state : AgentRunState) (error : Option String)

/-- A confirmation that has taken its plan from the table. -/
structure Confirmation where
  approved : Bool
  pending : PendingAgentAction
  stage : ConfirmationStage

inductive CancellationStage where
  | absent
  | awaiting
  | purged
deriving DecidableEq

/-- A cancellation that found no sender for its run. -/
structure Cancellation where
  runId : String
  stage : CancellationStage

inductive Observation where
  | toolExecuted (runId tool : String)
  | cancelReturned (runId : String) (cancelled : Bool)
deriving DecidableEq

def Observation.runId : Observation → String
  | toolExecuted runId _ => runId
  | cancelReturned runId _ => runId

/-- What stays fixed while a service runs. A provider is known by its base URL. -/
structure ServiceConfig where
  defaultProvider : String
  providers : BTreeMap String (Option String)
  toolExecutor : Bool
  requestTimeout : ℕ
  urls : UrlParser

structure Service where
  unixNow : ℕ
  instant : ℕ
  agentDefinitions : BTreeMap String AgentDefinition
  disabledAgents : List String
  agentRuns : BTreeMap String AgentRunStatus
  agentRequests : BTreeMap String AgentRequest
  capabilityLeases : BTreeMap String CapabilityLease
  runCapabilityLeases : BTreeMap String String
  /-- The senders of the cancellation channels, with the value last sent. -/
  agentCancellations : BTreeMap String Bool
  pendingAgentActions : BTreeMap String PendingAgentAction
  agentRunStore : Option (BTreeMap String (AgentRunStatus × AgentRequest))
  executions : BTreeMap String Execution
  confirmations : BTreeMap ℕ Confirmation
  cancellations : BTreeMap ℕ Cancellation
  /-- The random identifiers handed out so far. -/
  issued : List String
  log : List Observation

/-- How the store answers the writes of one step: the save of an updated run, the
save of its event and the entry in the control log. -/
structure StoreReply where
  save : Bool
  event : Bool
  audit : Bool

/-- `validate_run_id`: the form of every random identifier. -/
def isPlanId (id : String) : Bool := byteLen id == 48 && allChars isAsciiHexdigit id

namespace Service

def new (definitions : BTreeMap String AgentDefinition) (stored : Bool) (unixNow instant : ℕ) :
    Service :=
  { unixNow, instant, agentDefinitions := definitions, disabledAgents := [], agentRuns := ∅,
    agentRequests := ∅, capabilityLeases := ∅, runCapabilityLeases := ∅, agentCancellations := ∅,
    pendingAgentActions := ∅, agentRunStore := if stored then some ∅ else none, executions := ∅,
    confirmations := ∅, cancellations := ∅, issued := [], log := [] }

/-! Small updates of the tables. -/

def setStage (service : Service) (runId : String) (stage : ExecutionStage) : Service :=
  { service with
    executions := service.executions.modify runId fun execution => { execution with stage } }

def setExecution (service : Service) (runId : String) (execution : Execution) : Service :=
  { service with executions := service.executions.insert runId execution }

def observe (service : Service) (observation : Observation) : Service :=
  { service with log := service.log ++ [observation] }

def setConfirmation (service : Service) (call : ℕ) (stage : ConfirmationStage) : Service :=
  { service with
    confirmations := service.confirmations.modify call fun confirmation =>
      { confirmation with stage } }

def endConfirmation (service : Service) (call : ℕ) : Service :=
  { service with confirmations := service.confirmations.erase call }

def setCancellation (service : Service) (call : ℕ) (stage : CancellationStage) : Service :=
  { service with
    cancellations := service.cancellations.modify call fun cancellation =>
      { cancellation with stage } }

def endCancellation (service : Service) (call : ℕ) : Service :=
  { service with cancellations := service.cancellations.erase call }

/-! Persistence. -/

/-- `AgentRunStore::save`, when a store is enabled. -/
def save (service : Service) (saved : Bool) (status : AgentRunStatus) (request : AgentRequest) :
    Service × Except String Unit :=
  match service.agentRunStore with
  | none => (service, .ok ())
  | some store =>
    if saved then
      ({ service with agentRunStore := some (store.insert status.runId (status, request)) }, .ok ())
    else (service, .error "agent run database is unavailable")

def persistAgentRun (service : Service) (saved : Bool) (status : AgentRunStatus) :
    Service × Except String Unit :=
  match service.agentRunStore, service.agentRequests[status.runId]? with
  | none, _ => (service, .ok ())
  | some _, none => (service, .error "agent request disappeared from the runtime")
  | some _, some request => service.save saved status request

/-- The change is made in memory before it is saved. -/
def updateAgentRun (service : Service) (runId : String) (saved : Bool)
    (update : AgentRunStatus → AgentRunStatus) : Service × Except String Unit :=
  match service.agentRuns[runId]? with
  | none => (service, .error "agent run disappeared from the runtime")
  | some status =>
    { service with
      agentRuns := service.agentRuns.insert runId (update status) }.persistAgentRun saved
        (update status)

/-- Writes a changed run back; a failure to save it is only logged. -/
def putRun (service : Service) (runId : String) (saved : Bool) (status : AgentRunStatus) :
    Service :=
  let service := { service with agentRuns := service.agentRuns.insert runId status }
  match service.agentRequests[runId]? with
  | none => service
  | some request => (service.save saved status request).1

/-- `append_agent_event` -/
def recordAgentEvent (service : Service) (runId : String) (saved : Bool) (kind : AgentRunEventKind)
    : Service :=
  match service.agentRuns[runId]? with
  | none => service
  | some status => service.putRun runId saved (status.appendEvent service.unixNow kind)

/-- `RunEventSink::checkpoint_step` -/
def checkpointStep (service : Service) (runId : String) (saved : Bool) (step : AgentStepResult) :
    Service :=
  match service.agentRuns[runId]? with
  | none => service
  | some status => service.putRun runId saved (status.checkpoint step)

/-- An update and, when it went through, the event that records it. -/
def transition (service : Service) (runId : String) (reply : StoreReply)
    (update : AgentRunStatus → AgentRunStatus) (kind : AgentRunEventKind) :
    Service × Except String Unit :=
  match service.updateAgentRun runId reply.save update with
  | (service, .error error) => (service, .error error)
  | (service, .ok ()) => (service.recordAgentEvent runId reply.event kind, .ok ())

/-! Leases. -/

/-- `CapabilityExecutor::authorize` -/
def authorizeTool (config : ServiceConfig) (service : Service) (leaseId tool : String)
    (arguments : Value) (audited : Bool) : Except String Unit := do
  let lease ← okOr service.capabilityLeases[leaseId]? "capability lease is unavailable"
  let decision : Except String Unit := do
    bailIf (lease.revoked = true ∨ lease.expiresAtUnix ≤ service.unixNow)
      "capability lease is revoked or expired"
    bailIf (tool ∉ lease.tools) ("tool is outside the capability lease: " ++ tool)
    lease.policy.authorize config.urls tool arguments
  bailIf (service.agentRunStore.isSome ∧ audited = false) "agent run database is unavailable"
  decision

/-- `capability_leases` revokes the leases it finds expired. -/
def expireLeases (service : Service) : Service :=
  { service with
    capabilityLeases := service.capabilityLeases.map fun _ lease =>
      { lease with revoked := lease.revoked || decide (lease.expiresAtUnix ≤ service.unixNow) } }

def revokeCapabilityLease (service : Service) (leaseId : String) : Service :=
  { service with
    capabilityLeases := service.capabilityLeases.modify leaseId fun lease =>
      { lease with revoked := true } }

end Service

end FocalDesk
