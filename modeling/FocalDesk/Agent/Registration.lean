import FocalDesk.Agent.Service
import Mathlib.Data.List.Sort

/-! Registration of agent runs with their leases, eviction, and the reload at start. -/
namespace FocalDesk
open Library

/-- How the store answers a registration. `usage` is the daily usage it reports. -/
structure RegisterReply where
  usage : Except String (ℕ × ℕ)
  expireAudit : Bool
  grantAudit : Bool
  delete : String → Bool
  save : Bool

namespace Service

def validateAgentRequest (config : ServiceConfig) (service : Service) (request : AgentRequest)
    (usage : Except String (ℕ × ℕ)) : Except String Unit := do
  bailIf (trim request.objective = "") "agent objective must not be empty"
  bailIf (4000 < charCount (trim request.objective)) "agent objective exceeds 4000 characters"
  let providerId := request.provider.getD config.defaultProvider
  bailIf (providerId ∉ config.providers) ("unknown AI provider: " ++ providerId)
  bailIf (config.toolExecutor = false) "AI agent tools are not configured"
  let definition ← okOr service.agentDefinitions[request.agent]?
    ("unknown AI agent: " ++ request.agent)
  bailIf (request.agent ∈ service.disabledAgents) ("AI agent is disabled: " ++ request.agent)
  match service.agentRunStore with
  | none => return ()
  | some _ =>
    let (input, output) ← usage
    bailIf (∃ limit ∈ definition.dailyTokenLimit, limit ≤ input + output)
      "AI agent reached its daily token limit"
    bailIf (∃ limit ∈ definition.dailyCostLimitMicrousd,
        limit ≤ estimateAgentCost definition input output)
      "AI agent reached its daily estimated cost limit"

/-- The policy of a lease: the policy of the definition under the ceiling, if there is one. -/
def leasePolicy (definition : AgentDefinition) (capabilityCeiling : Option CapabilityPolicy) :
    CapabilityPolicy :=
  let policy := definition.capabilityPolicy.getD .default
  match capabilityCeiling with
  | some ceiling => policy.intersect ceiling
  | none => policy

/-- A policy with network origins has to allow the provider. -/
def authorizeProvider (config : ServiceConfig) (policy : CapabilityPolicy) (providerId : String) :
    Except String Unit :=
  match policy.networkOrigins with
  | none => .ok ()
  | some _ => do
    let url ← okOr (config.providers[providerId]?.bind id)
      "provider has no origin for capability enforcement"
    policy.authorize config.urls "provider_egress" (.object [("url", .string url)])

/-- Evicts the oldest terminal runs until there is room for one more. Each round
removes a run, so their number bounds the rounds. -/
def evictRuns : ℕ → BTreeMap String AgentRunStatus → List String →
    BTreeMap String AgentRunStatus × List String × Except String Unit
  | 0, runs, evicted => (runs, evicted, .ok ())
  | fuel + 1, runs, evicted =>
    if runs.size < maxRetainedAgentRuns then (runs, evicted, .ok ())
    else
      match minByKey (fun run => run.2.createdAtUnix)
          (runs.toList.filter fun run => run.2.state.isTerminal) with
      | none => (runs, evicted, .error "too many agent runs are active")
      | some (oldest, _) => evictRuns fuel (runs.erase oldest) (evicted ++ [oldest])

/-- Forgets what belongs to evicted runs, up to the first one the store fails to delete. -/
def forgetRuns (deleted : String → Bool) : List String → Service → Service × Except String Unit
  | [], service => (service, .ok ())
  | runId :: evicted, service =>
    let service := { service with
      runCapabilityLeases := service.runCapabilityLeases.erase runId
      agentRequests := service.agentRequests.erase runId }
    match service.agentRunStore with
    | none => forgetRuns deleted evicted service
    | some store =>
      if deleted runId then
        forgetRuns deleted evicted { service with agentRunStore := some (store.erase runId) }
      else (service, .error "agent run database is unavailable")

def insertAgentRun (service : Service) (status : AgentRunStatus) (request : AgentRequest)
    (reply : RegisterReply) : Service × Except String Unit :=
  let (runs, evicted, room) := evictRuns service.agentRuns.size service.agentRuns []
  let service := { service with agentRuns := runs }
  match room with
  | .error error => (service, .error error)
  | .ok () =>
    match forgetRuns reply.delete evicted service with
    | (service, .error error) => (service, .error error)
    | (service, .ok ()) =>
      match service.save reply.save status request with
      | (service, .error error) => (service, .error error)
      | (service, .ok ()) =>
        ({ service with
          agentRequests := service.agentRequests.insert status.runId request
          agentRuns := service.agentRuns.insert status.runId status }, .ok ())

def newStatus (config : ServiceConfig) (service : Service) (definition : AgentDefinition)
    (request : AgentRequest) (runId : String) (trigger : Option AgentTriggerSource) :
    AgentRunStatus :=
  { runId, agentId := definition.id, state := .waitingForPermission,
    objectivePreview := truncatePreview (trim request.objective) 160,
    provider := request.provider.getD config.defaultProvider, trigger, model := request.model,
    createdAtUnix := service.unixNow, startedAtUnix := none, completedAtUnix := none,
    deadlineAtUnix := service.unixNow + min config.requestTimeout definition.timeoutSeconds,
    maxToolSteps := definition.maxToolSteps, maxContextChars := definition.maxContextChars,
    maxOutputTokens := definition.maxOutputTokens, completedToolSteps := 0, observations := [],
    events := [⟨1, service.unixNow, .registered⟩], error := none, result := none }

def newLease (config : ServiceConfig) (service : Service) (definition : AgentDefinition)
    (policy : CapabilityPolicy) (runId leaseId : String) : CapabilityLease :=
  { leaseId, runId, agentId := definition.id, tools := definition.toolAllowlist, policy,
    issuedAtUnix := service.unixNow,
    expiresAtUnix := service.unixNow +
      min (min config.requestTimeout definition.timeoutSeconds) policy.leaseSeconds,
    revoked := false, workflowRunId := none }

/-- The checks of a registration, and the definition and policy they settle on. -/
def checkRegistration (config : ServiceConfig) (service : Service) (request : AgentRequest)
    (capabilityCeiling : Option CapabilityPolicy) (usage : Except String (ℕ × ℕ)) :
    Except String (AgentDefinition × CapabilityPolicy) := do
  service.validateAgentRequest config request usage
  let definition ← okOr service.agentDefinitions[request.agent]?
    ("unknown AI agent: " ++ request.agent)
  let policy := leasePolicy definition capabilityCeiling
  policy.validate config.urls
  authorizeProvider config policy (request.provider.getD config.defaultProvider)
  return (definition, policy)

/-- Drops the leases that are over and inserts the new one, if there is room. -/
def grantLease (service : Service) (lease : CapabilityLease) (reply : RegisterReply) :
    Service × Except String Unit :=
  let expired := service.capabilityLeases.filter fun _ lease =>
    !lease.revoked && decide (lease.expiresAtUnix ≤ service.unixNow)
  let leases := service.capabilityLeases.filter fun _ lease =>
    !lease.revoked && decide (service.unixNow < lease.expiresAtUnix)
  let service : Service := { service with capabilityLeases := leases }
  if maxCapabilityLeases ≤ leases.size then
    (service, .error "too many capability leases are active")
  else
    let service : Service :=
      { service with capabilityLeases := leases.insert lease.leaseId lease }
    if service.agentRunStore.isSome ∧ expired.size ≠ 0 ∧ reply.expireAudit = false then
      (service, .error "agent run database is unavailable")
    else
      let service : Service := { service with
        runCapabilityLeases := service.runCapabilityLeases.insert lease.runId lease.leaseId }
      if service.agentRunStore.isSome ∧ reply.grantAudit = false then
        (service, .error "agent run database is unavailable")
      else (service, .ok ())

def registerAgentRun (config : ServiceConfig) (service : Service) (request : AgentRequest)
    (runId leaseId : String) (trigger : Option AgentTriggerSource)
    (capabilityCeiling : Option CapabilityPolicy) (reply : RegisterReply) :
    Service × Except String Unit :=
  match service.checkRegistration config request capabilityCeiling reply.usage with
  | .error error => (service, .error error)
  | .ok (definition, policy) =>
    match service.grantLease (service.newLease config definition policy runId leaseId) reply with
    | (service, .error error) => (service, .error error)
    | (service, .ok ()) =>
      match service.insertAgentRun (service.newStatus config definition request runId trigger)
          request reply with
      | (service, .error error) => (service, .error error)
      | (service, .ok ()) =>
        ({ service with agentCancellations := service.agentCancellations.insert runId false },
          .ok ())

/-- Hands a registered run to a new task. -/
def spawn (service : Service) (runId : String) (request : AgentRequest)
    (observations : List AgentStepResult) : Service :=
  service.setExecution runId { request, leaseId := "", results := observations, stage := .starting }

/-- `start_agent_with_ceiling` and `run_agent`, from the registration on. -/
def startAgent (config : ServiceConfig) (service : Service) (request : AgentRequest)
    (ceiling : Option CapabilityPolicy) (runId leaseId : String) (reply : RegisterReply) :
    Service :=
  match service.registerAgentRun config request runId leaseId none ceiling reply with
  | (service, .error _) => service
  | (service, .ok ()) => service.spawn runId request []

/-- `fire_agent_trigger`, from the registration on. -/
def fireAgentTrigger (config : ServiceConfig) (service : Service) (request : AgentRequest)
    (source : AgentTriggerSource) (runId leaseId : String) (reply : RegisterReply)
    (firing : Except String Unit) (write : StoreReply) : Service :=
  match service.registerAgentRun config request runId leaseId (some source) none reply with
  | (service, .error _) => service
  | (service, .ok ()) =>
    match service.agentRunStore, firing with
    | some _, .error error =>
      match service.transition runId write
          (fun run => run.settle .failed service.unixNow (some error)) (.failed error) with
      | (service, .error _) => service
      | (service, .ok ()) =>
        { service with agentCancellations := service.agentCancellations.erase runId }
    | _, _ =>
      (service.recordAgentEvent runId write.event
        (.triggered source.triggerId source.kind)).spawn runId request []

/-- `retry_agent_run`: the new registration passes no ceiling. -/
def retryAgentRun (config : ServiceConfig) (service : Service) (runId newRunId leaseId : String)
    (reply : RegisterReply) (write : StoreReply) : Service :=
  match service.agentRuns[runId]?, service.agentRequests[runId]? with
  | some run, some request =>
    if run.state.isTerminal then
      match service.registerAgentRun config request newRunId leaseId none none reply with
      | (service, .error _) => service
      | (service, .ok ()) =>
        match service.transition newRunId write
            (fun new => { new with
              observations := run.observations
              completedToolSteps := run.observations.length })
            (.retried runId run.observations.length) with
        | (service, .error _) => service
        | (service, .ok ()) => service.spawn newRunId request run.observations
    else service
  | _, _ => service

/-! The reload of the persisted runs. -/

def interruptedMessage (state : AgentRunState) : String :=
  if state = .awaitingConfirmation then
    "agent action was invalidated by daemon restart; start a fresh run"
  else
    "agent run was interrupted by daemon restart; retry it to start from a safe boundary"

/-- A run that a restart interrupted has failed. -/
def interrupt (now : ℕ) (status : AgentRunStatus) : AgentRunStatus :=
  if status.state.isTerminal then status
  else
    let message := interruptedMessage status.state
    let result := status.result.map fun result => { result with confirmation := none }
    { status.settle .failed now (some message) with result }.appendEvent now (.failed message)

/-- `AgentRunStore::load`: the latest runs first. -/
def loadRuns (store : BTreeMap String (AgentRunStatus × AgentRequest)) :
    List (AgentRunStatus × AgentRequest) :=
  ((store.toList.map Prod.snd).insertionSort fun a b =>
    b.1.createdAtUnix < a.1.createdAtUnix ∨
      (b.1.createdAtUnix = a.1.createdAtUnix ∧ b.1.runId ≤ a.1.runId)).take maxRetainedAgentRuns

/-- A new service over the store of an old one, under definitions and disabled agents that
are read again. -/
def restart (service : Service) (definitions : BTreeMap String AgentDefinition)
    (disabled : List String) : Service :=
  let fresh : Service :=
    { new definitions false service.unixNow service.instant with
      disabledAgents := disabled, issued := service.issued, log := service.log }
  match service.agentRunStore with
  | none => fresh
  | some store =>
    let loaded := (loadRuns store).map fun (status, request) =>
      (interrupt service.unixNow status, request)
    { fresh with
      agentRuns := loaded.foldl (fun runs run => runs.insert run.1.runId run.1) ∅
      agentRequests := loaded.foldl (fun requests run => requests.insert run.1.runId run.2) ∅
      agentRunStore := some (loaded.foldl (fun store run => store.insert run.1.runId run) store) }

end Service

end FocalDesk
