import FocalDesk.Agent.Registration
import FocalDesk.Library.Transition

/-!
The steps of the service: a task that executes a run, confirmations and cancellations,
interleaved at the points where the source gives up its locks or awaits.
-/
namespace FocalDesk
open Library

inductive ExecutionEvent where
  | start (reply : StoreReply)
  | authorize (granted : Bool) (reply : StoreReply)
  | observe (reply : StoreReply)
  | enqueue (reply : StoreReply)
  | cancel (reply : StoreReply)
  | acquire
  | markRunning (reply : StoreReply)
  | poll
  | pend
  | plan (reply : StoreReply)
  | callTool (tool : String) (arguments : Value) (reply : StoreReply)
  | toolReturned (result : Except String Value) (reply : StoreReply)
  | finish (result : Except String AgentResponse) (reply : StoreReply)
  | timeOut
  | conclude (reply : StoreReply)
  | propose (planId : String) (reply : StoreReply)
  | publish (reply : StoreReply)
  | drop

inductive ConfirmationEvent where
  | check
  | prompt (answer : Except String Unit)
  | execute (reply : StoreReply)
  | executed (succeeded : Bool)
  | resolve (reply : StoreReply)

inductive CancellationEvent where
  | observe
  | purge
  | settle (reply : StoreReply)

inductive ServiceEvent where
  | tick (unixNow instant : ℕ)
  | setAgentDefinitions (definitions : BTreeMap String AgentDefinition)
  | setDisabledAgents (disabled : List String)
  | expireLeases
  | revokeCapabilityLease (leaseId : String)
  | startAgent (request : AgentRequest) (ceiling : Option CapabilityPolicy)
      (runId leaseId : String) (reply : RegisterReply)
  | fireAgentTrigger (request : AgentRequest) (source : AgentTriggerSource)
      (runId leaseId : String) (reply : RegisterReply) (firing : Except String Unit)
      (write : StoreReply)
  | retryAgentRun (runId newRunId leaseId : String) (reply : RegisterReply) (write : StoreReply)
  | execution (runId : String) (event : ExecutionEvent)
  | confirmAgentAction (call : ℕ) (planId : String) (approved : Bool)
  | confirmation (call : ℕ) (event : ConfirmationEvent)
  | cancelAgentRun (call : ℕ) (runId : String)
  | cancellation (call : ℕ) (event : CancellationEvent)
  | restart (definitions : BTreeMap String AgentDefinition) (disabled : List String)

namespace Service

/-- The value the task of a run reads from its cancellation channel. -/
def cancelRequested (service : Service) (runId : String) : Bool :=
  service.agentCancellations[runId]? = some true

/-- A sender reaches the receiver until the task has returned. -/
def hasReceiver (service : Service) (runId : String) : Bool :=
  match service.executions[runId]? with
  | some { stage := .returned, .. } => false
  | some _ => true
  | none => false

/-- Settles a run as its task leaves. -/
def leave (service : Service) (runId : String) (reply : StoreReply)
    (update : AgentRunStatus → AgentRunStatus) (kind : AgentRunEventKind) : Service :=
  (service.transition runId reply update kind).1.setStage runId .returning

def leaveCancelled (service : Service) (runId : String) (reply : StoreReply) : Service :=
  service.leave runId reply (·.cancel service.unixNow) .cancelled

def leaveFailed (service : Service) (runId : String) (reply : StoreReply) (error : String) :
    Service :=
  service.leave runId reply (·.settle .failed service.unixNow (some error)) (.failed error)

/-- What a task looks up before it registers its cancellation guard: the lease of its run. -/
def lookUp (config : ServiceConfig) (service : Service) (runId : String) (request : AgentRequest) :
    Except String String := do
  let providerId := request.provider.getD config.defaultProvider
  bailIf (providerId ∉ config.providers) ("unknown AI provider: " ++ providerId)
  bailIf (config.toolExecutor = false) "AI agent tools are not configured"
  let leaseId ← okOr service.runCapabilityLeases[runId]? "agent capability lease is unavailable"
  bailIf (request.agent ∉ service.agentDefinitions) ("unknown AI agent: " ++ request.agent)
  return leaseId

/-- A task that fails its lookups returns without touching the run. -/
def start (config : ServiceConfig) (service : Service) (runId : String) (execution : Execution)
    (reply : StoreReply) : Service :=
  match service.lookUp config runId execution.request with
  | .error _ => service.setStage runId .returned
  | .ok leaseId =>
    (service.setExecution runId
      { execution with leaseId, stage := .permission }).recordAgentEvent runId reply.event
        .permissionRequested

def authorizeRun (config : ServiceConfig) (service : Service) (runId : String)
    (execution : Execution) (granted : Bool) (reply : StoreReply) : Service :=
  if granted then service.setStage runId .permitted
  else
    service.leaveFailed runId reply ("AI agent blocked for provider " ++
      execution.request.provider.getD config.defaultProvider)

/-- Moves a run to its next state; a save that fails ends the task. -/
def advance (service : Service) (runId : String) (reply : StoreReply)
    (update : AgentRunStatus → AgentRunStatus) (kind : Option AgentRunEventKind)
    (stage : ExecutionStage) : Service :=
  match service.updateAgentRun runId reply.save update with
  | (service, .error _) => service.setStage runId .returning
  | (service, .ok ()) =>
    match kind with
    | some kind => (service.recordAgentEvent runId reply.event kind).setStage runId stage
    | none => service.setStage runId stage

/-- `CapabilityExecutor::execute`: a call the lease refuses ends the agent. -/
def callTool (config : ServiceConfig) (service : Service) (runId : String) (execution : Execution)
    (tool : String) (arguments : Value) (reply : StoreReply) : Service :=
  let service := service.recordAgentEvent runId reply.event
    (.toolStarted (execution.results.length + 1) tool)
  match service.authorizeTool config execution.leaseId tool arguments reply.audit with
  | .error _ => service.setStage runId (.finished (.error ("agent tool " ++ tool ++ " failed")))
  | .ok () =>
    (service.observe (.toolExecuted runId tool)).setStage runId
      (.running true (some (tool, arguments)))

def toolReturned (service : Service) (runId : String) (execution : Execution) (tool : String)
    (arguments : Value) (result : Except String Value) (reply : StoreReply) : Service :=
  match result with
  | .error _ => service.setStage runId (.finished (.error ("agent tool " ++ tool ++ " failed")))
  | .ok result =>
    let step : AgentStepResult := ⟨tool, arguments, result⟩
    let service := (service.checkpointStep runId reply.save step).recordAgentEvent runId
      reply.event (.toolCompleted (execution.results.length + 1) tool)
    service.setExecution runId
      { execution with results := execution.results ++ [step], stage := .running true none }

/-- The agent returns its answer with the results it holds, and no confirmation yet. -/
def finish (service : Service) (runId : String) (execution : Execution)
    (result : Except String AgentResponse) (reply : StoreReply) : Service :=
  match result with
  | .error error => service.setStage runId (.finished (.error error))
  | .ok response =>
    let service := match response.proposedAction with
      | some action => service.recordAgentEvent runId reply.event (.actionProposed action.tool)
      | none => service
    service.setStage runId
      (.finished (.ok { response with runId, steps := execution.results, confirmation := none }))

/-- The sweep a proposal makes drops every expired plan, and nothing else. -/
def sweepPlans (service : Service) : Service :=
  { service with
    pendingAgentActions := service.pendingAgentActions.filter fun _ plan =>
      decide (service.instant < plan.expiresAt) }

def insertPlan (service : Service) (planId : String) (plan : PendingAgentAction) : Service :=
  { service with
    pendingAgentActions := service.pendingAgentActions.insert planId plan
    issued := planId :: service.issued }

def propose (service : Service) (runId : String) (execution : Execution) (response : AgentResponse)
    (action : AgentProposedAction) (planId : String) (reply : StoreReply) : Service :=
  let service := service.sweepPlans
  if maxPendingAgentActions ≤ service.pendingAgentActions.size then
    service.leaveFailed runId reply "too many agent actions are awaiting confirmation"
  else
    let plan : PendingAgentAction :=
      { runId, leaseId := execution.leaseId, action,
        expiresAt := service.instant + agentActionTtl }
    let confirmation : AgentConfirmation :=
      ⟨planId, service.unixNow + agentActionTtl, action.tool, action.arguments⟩
    (service.insertPlan planId plan).setStage runId
      (.publishing { response with confirmation := some confirmation })

/-- The state an answered run is published in. -/
def finalState (response : AgentResponse) : AgentRunState :=
  if response.confirmation.isSome then .awaitingConfirmation else .completed

def publish (service : Service) (runId : String) (response : AgentResponse) (reply : StoreReply) :
    Service :=
  let final := finalState response
  service.leave runId reply
    (fun run => { run with
      state := final
      completedToolSteps := response.steps.length
      observations := response.steps
      completedAtUnix := if final.isTerminal then some service.unixNow else run.completedAtUnix
      result := some response })
    (if final = .awaitingConfirmation then .awaitingConfirmation else .completed)

/-- The guard of a task removes the sender of its run. -/
def dropGuard (service : Service) (runId : String) : Service :=
  { service with
    agentCancellations := service.agentCancellations.erase runId }.setStage runId .returned

/-- A step of the task that executes a run. Both arms of a select may be taken when both
are ready. -/
def stepExecution (config : ServiceConfig) (service : Service) (runId : String)
    (execution : Execution) (event : ExecutionEvent) : Option Service :=
  match execution.stage, event with
  | .starting, .start reply => some (service.start config runId execution reply)
  | .permission, .authorize granted reply =>
    some (service.authorizeRun config runId execution granted reply)
  | .permitted, .observe reply =>
    if service.cancelRequested runId then some (service.leaveCancelled runId reply)
    else some (service.setStage runId .enqueuing)
  | .enqueuing, .enqueue reply =>
    some (service.advance runId reply ({ · with state := .queued }) (some .queued) .queued)
  | .queued, .cancel reply =>
    if service.cancelRequested runId then some (service.leaveCancelled runId reply) else none
  | .queued, .acquire => some (service.setStage runId .admitted)
  | .admitted, .markRunning reply =>
    some (service.advance runId reply
      ({ · with state := .running, startedAtUnix := some service.unixNow }) none
      (.running false none))
  | .running false calling, .poll => some (service.setStage runId (.running true calling))
  | .running false _, .cancel reply =>
    if service.cancelRequested runId then some (service.leaveCancelled runId reply) else none
  | .running true calling, .pend => some (service.setStage runId (.running false calling))
  | .running true _, .timeOut => some (service.setStage runId .returning)
  | .running true none, .plan reply =>
    some (service.recordAgentEvent runId reply.event (.planning (execution.results.length + 1)))
  | .running true none, .callTool tool arguments reply =>
    some (service.callTool config runId execution tool arguments reply)
  | .running true (some (tool, arguments)), .toolReturned result reply =>
    some (service.toolReturned runId execution tool arguments result reply)
  | .running true none, .finish result reply =>
    some (service.finish runId execution result reply)
  | .finished (.error error), .conclude reply => some (service.leaveFailed runId reply error)
  | .finished (.ok response), .conclude _ =>
    if response.proposedAction.isNone then some (service.setStage runId (.publishing response))
    else none
  | .finished (.ok response), .propose planId reply =>
    match response.proposedAction with
    | none => none
    | some action =>
      if planId ∈ service.issued ∨ planId ∈ service.pendingAgentActions
          ∨ isPlanId planId = false then none
      else some (service.propose runId execution response action planId reply)
  | .publishing response, .publish reply => some (service.publish runId response reply)
  | .returning, .drop => some (service.dropGuard runId)
  | _, _ => none

/-- The steps of a task, one constructor for each program point and event. -/
inductive ExecutionStep (config : ServiceConfig) (service : Service) (runId : String)
    (execution : Execution) : ExecutionEvent → Service → Prop
  | start {reply} (h : execution.stage = .starting) : ExecutionStep config service runId execution
      (.start reply) (service.start config runId execution reply)
  | authorize {granted reply} (h : execution.stage = .permission) :
      ExecutionStep config service runId execution (.authorize granted reply)
        (service.authorizeRun config runId execution granted reply)
  | observeCancelled {reply} (h : execution.stage = .permitted)
      (hcancel : service.cancelRequested runId = true) :
      ExecutionStep config service runId execution (.observe reply)
        (service.leaveCancelled runId reply)
  | observe {reply} (h : execution.stage = .permitted)
      (hcancel : service.cancelRequested runId = false) :
      ExecutionStep config service runId execution (.observe reply)
        (service.setStage runId .enqueuing)
  | enqueue {reply} (h : execution.stage = .enqueuing) :
      ExecutionStep config service runId execution (.enqueue reply)
        (service.advance runId reply ({ · with state := .queued }) (some .queued) .queued)
  | cancelQueued {reply} (h : execution.stage = .queued)
      (hcancel : service.cancelRequested runId = true) :
      ExecutionStep config service runId execution (.cancel reply)
        (service.leaveCancelled runId reply)
  | acquire (h : execution.stage = .queued) : ExecutionStep config service runId execution
      .acquire (service.setStage runId .admitted)
  | markRunning {reply} (h : execution.stage = .admitted) :
      ExecutionStep config service runId execution (.markRunning reply)
        (service.advance runId reply
          ({ · with state := .running, startedAtUnix := some service.unixNow }) none
          (.running false none))
  | poll {calling} (h : execution.stage = .running false calling) :
      ExecutionStep config service runId execution .poll
        (service.setStage runId (.running true calling))
  | cancelRunning {calling reply} (h : execution.stage = .running false calling)
      (hcancel : service.cancelRequested runId = true) :
      ExecutionStep config service runId execution (.cancel reply)
        (service.leaveCancelled runId reply)
  | pend {calling} (h : execution.stage = .running true calling) :
      ExecutionStep config service runId execution .pend
        (service.setStage runId (.running false calling))
  | timeOut {calling} (h : execution.stage = .running true calling) :
      ExecutionStep config service runId execution .timeOut (service.setStage runId .returning)
  | plan {reply} (h : execution.stage = .running true none) :
      ExecutionStep config service runId execution (.plan reply)
        (service.recordAgentEvent runId reply.event (.planning (execution.results.length + 1)))
  | callTool {tool arguments reply} (h : execution.stage = .running true none) :
      ExecutionStep config service runId execution (.callTool tool arguments reply)
        (service.callTool config runId execution tool arguments reply)
  | toolReturned {tool arguments result reply}
      (h : execution.stage = .running true (some (tool, arguments))) :
      ExecutionStep config service runId execution (.toolReturned result reply)
        (service.toolReturned runId execution tool arguments result reply)
  | finish {result reply} (h : execution.stage = .running true none) :
      ExecutionStep config service runId execution (.finish result reply)
        (service.finish runId execution result reply)
  | concludeError {error reply} (h : execution.stage = .finished (.error error)) :
      ExecutionStep config service runId execution (.conclude reply)
        (service.leaveFailed runId reply error)
  | conclude {response reply} (h : execution.stage = .finished (.ok response))
      (haction : response.proposedAction = none) :
      ExecutionStep config service runId execution (.conclude reply)
        (service.setStage runId (.publishing response))
  | propose {response action planId reply} (h : execution.stage = .finished (.ok response))
      (haction : response.proposedAction = some action) (hissued : planId ∉ service.issued)
      (hplan : planId ∉ service.pendingAgentActions) (hid : isPlanId planId = true) :
      ExecutionStep config service runId execution (.propose planId reply)
        (service.propose runId execution response action planId reply)
  | publish {response reply} (h : execution.stage = .publishing response) :
      ExecutionStep config service runId execution (.publish reply)
        (service.publish runId response reply)
  | drop (h : execution.stage = .returning) :
      ExecutionStep config service runId execution .drop (service.dropGuard runId)

variable {service : Service}

theorem stepExecution_cases {cfg : ServiceConfig} {t : Service} {rid : String}
    {exec : Execution} {ev : ExecutionEvent}
    (h : service.stepExecution cfg rid exec ev = some t) :
    ExecutionStep cfg service rid exec ev t := by
  unfold stepExecution at h
  split at h
  case h_3 =>
    split at h
    case isTrue hc =>
      cases h
      exact .observeCancelled ‹_› hc
    case isFalse hc =>
      cases h
      exact .observe ‹_› (by simpa using hc)
  case h_5 =>
    split at h
    case isTrue hc =>
      cases h
      exact .cancelQueued ‹_› hc
    case isFalse => cases h
  case h_9 =>
    split at h
    case isTrue hc =>
      cases h
      exact .cancelRunning ‹_› hc
    case isFalse => cases h
  case h_17 =>
    split at h
    case isTrue ha =>
      cases h
      exact .conclude ‹_› (by simpa using ha)
    case isFalse => cases h
  case h_18 =>
    split at h
    case h_1 => cases h
    case h_2 ha =>
      split at h
      case isTrue => cases h
      case isFalse hf =>
        cases h
        simp only [not_or, Bool.not_eq_false] at hf
        exact .propose ‹_› ha hf.1 hf.2.1 hf.2.2
  case h_21 => cases h
  all_goals
    cases h
    constructor
    assumption

/-! Confirmations. -/

/-- A plan is taken from the table before anything else is decided about it. -/
def confirmAgentAction (service : Service) (call : ℕ) (planId : String) (approved : Bool) :
    Service :=
  if isPlanId planId = false then service
  else
    match service.pendingAgentActions[planId]? with
    | none => service
    | some pending =>
      { service with
        pendingAgentActions := service.pendingAgentActions.erase planId
        confirmations := service.confirmations.insert call ⟨approved, pending, .taken⟩ }

/-- What a confirmation that has its plan does next. -/
def checkedStage (service : Service) (confirmation : Confirmation) : ConfirmationStage :=
  if confirmation.pending.expiresAt ≤ service.instant then
    .resolving .failed (some "agent action plan expired")
  else if confirmation.approved = false then .resolving .completed none
  else .prompting

/-- The event that records how a confirmation resolved its run. -/
def resolvedEvent (error : Option String) : AgentRunEventKind :=
  match error with
  | some message => .failed message
  | none => .completed

def stepConfirmation (config : ServiceConfig) (service : Service) (call : ℕ)
    (confirmation : Confirmation) (event : ConfirmationEvent) : Option Service :=
  let pending := confirmation.pending
  let failed := "confirmed agent action " ++ pending.action.tool ++ " failed"
  match confirmation.stage, event with
  | .taken, .check => some (service.setConfirmation call (service.checkedStage confirmation))
  | .prompting, .prompt (.error error) =>
    some (service.setConfirmation call (.resolving .failed (some error)))
  | .prompting, .prompt (.ok ()) => some (service.setConfirmation call .approved)
  | .approved, .execute reply =>
    if config.toolExecutor = false then some (service.endConfirmation call)
    else
      match service.authorizeTool config pending.leaseId pending.action.tool
          pending.action.arguments reply.audit with
      | .error _ => some (service.setConfirmation call (.resolving .failed (some failed)))
      | .ok () =>
        some ((service.observe (.toolExecuted pending.runId pending.action.tool)).setConfirmation
          call .executing)
  | .executing, .executed succeeded =>
    some (service.setConfirmation call
      (if succeeded then .resolving .completed none else .resolving .failed (some failed)))
  | .resolving state error, .resolve reply =>
    some ((service.transition pending.runId reply (·.settle state service.unixNow error)
      (resolvedEvent error)).1.endConfirmation call)
  | _, _ => none

/-- The steps of a confirmation. -/
inductive ConfirmationStep (config : ServiceConfig) (service : Service) (call : ℕ)
    (confirmation : Confirmation) : ConfirmationEvent → Service → Prop
  | check (h : confirmation.stage = .taken) : ConfirmationStep config service call confirmation
      .check (service.setConfirmation call (service.checkedStage confirmation))
  | refused {error} (h : confirmation.stage = .prompting) :
      ConfirmationStep config service call confirmation (.prompt (.error error))
        (service.setConfirmation call (.resolving .failed (some error)))
  | approved (h : confirmation.stage = .prompting) :
      ConfirmationStep config service call confirmation (.prompt (.ok ()))
        (service.setConfirmation call .approved)
  | unconfigured {reply} (h : confirmation.stage = .approved)
      (hconfig : config.toolExecutor = false) :
      ConfirmationStep config service call confirmation (.execute reply)
        (service.endConfirmation call)
  | unauthorized {reply error} (h : confirmation.stage = .approved)
      (hlease : service.authorizeTool config confirmation.pending.leaseId
        confirmation.pending.action.tool confirmation.pending.action.arguments reply.audit =
          .error error) :
      ConfirmationStep config service call confirmation (.execute reply)
        (service.setConfirmation call (.resolving .failed
          (some ("confirmed agent action " ++ confirmation.pending.action.tool ++ " failed"))))
  | execute {reply} (h : confirmation.stage = .approved) (hconfig : config.toolExecutor = true)
      (hlease : service.authorizeTool config confirmation.pending.leaseId
        confirmation.pending.action.tool confirmation.pending.action.arguments reply.audit =
          .ok ()) :
      ConfirmationStep config service call confirmation (.execute reply)
        ((service.observe (.toolExecuted confirmation.pending.runId
          confirmation.pending.action.tool)).setConfirmation call .executing)
  | executed {succeeded} (h : confirmation.stage = .executing) :
      ConfirmationStep config service call confirmation (.executed succeeded)
        (service.setConfirmation call
          (if succeeded then .resolving .completed none
          else .resolving .failed
            (some ("confirmed agent action " ++ confirmation.pending.action.tool ++ " failed"))))
  | resolve {state error reply} (h : confirmation.stage = .resolving state error) :
      ConfirmationStep config service call confirmation (.resolve reply)
        ((service.transition confirmation.pending.runId reply
          (·.settle state service.unixNow error) (resolvedEvent error)).1.endConfirmation call)

theorem stepConfirmation_cases {cfg : ServiceConfig} {t : Service} {call : ℕ}
    {conf : Confirmation} {ev : ConfirmationEvent}
    (h : service.stepConfirmation cfg call conf ev = some t) :
    ConfirmationStep cfg service call conf ev t := by
  unfold stepConfirmation at h
  dsimp only at h
  split at h
  case h_4 =>
    split at h
    case isTrue hc =>
      cases h
      exact .unconfigured ‹_› hc
    case isFalse hc =>
      split at h
      case h_1 hl =>
        cases h
        exact .unauthorized ‹_› hl
      case h_2 hl =>
        cases h
        exact .execute ‹_› (by simpa using hc) hl
  case h_7 => cases h
  all_goals
    cases h
    constructor
    assumption

/-! Cancellations. -/

/-- The first look of a cancellation is at the senders. -/
def cancelAgentRun (service : Service) (call : ℕ) (runId : String) : Service :=
  if isPlanId runId = false then service
  else
    match service.agentCancellations[runId]? with
    | some _ =>
      if service.hasReceiver runId then
        { service with
          agentCancellations := service.agentCancellations.insert runId true }.observe
            (.cancelReturned runId true)
      else service.observe (.cancelReturned runId false)
    | none =>
      { service with cancellations := service.cancellations.insert call ⟨runId, .absent⟩ }

def purgePlans (service : Service) (runId : String) : Service :=
  { service with
    pendingAgentActions := service.pendingAgentActions.filter fun _ plan => plan.runId != runId }

def stepCancellation (service : Service) (call : ℕ) (cancellation : Cancellation)
    (event : CancellationEvent) : Option Service :=
  let runId := cancellation.runId
  match cancellation.stage, event with
  | .absent, .observe =>
    if (service.agentRuns[runId]?.map (·.state)) = some .awaitingConfirmation then
      some (service.setCancellation call .awaiting)
    else some ((service.endCancellation call).observe (.cancelReturned runId false))
  | .awaiting, .purge =>
    some ((service.purgePlans runId).setCancellation call .purged)
  | .purged, .settle reply =>
    match service.transition runId reply (·.settle .cancelled service.unixNow none) .cancelled with
    | (service, .error _) => some (service.endCancellation call)
    | (service, .ok ()) =>
      some ((service.endCancellation call).observe (.cancelReturned runId true))
  | _, _ => none

/-- The steps of a cancellation. -/
inductive CancellationStep (service : Service) (call : ℕ) (cancellation : Cancellation) :
    CancellationEvent → Service → Prop
  | awaiting (h : cancellation.stage = .absent)
      (hstate : service.agentRuns[cancellation.runId]?.map (·.state) = some .awaitingConfirmation) :
      CancellationStep service call cancellation .observe (service.setCancellation call .awaiting)
  | notAwaiting (h : cancellation.stage = .absent)
      (hstate : service.agentRuns[cancellation.runId]?.map (·.state) ≠ some .awaitingConfirmation) :
      CancellationStep service call cancellation .observe
        ((service.endCancellation call).observe (.cancelReturned cancellation.runId false))
  | purge (h : cancellation.stage = .awaiting) : CancellationStep service call cancellation .purge
      ((service.purgePlans cancellation.runId).setCancellation call .purged)
  | settled {reply} (h : cancellation.stage = .purged)
      (hok : (service.transition cancellation.runId reply
        (·.settle .cancelled service.unixNow none) .cancelled).2 = .ok ()) :
      CancellationStep service call cancellation (.settle reply)
        (((service.transition cancellation.runId reply
          (·.settle .cancelled service.unixNow none) .cancelled).1.endCancellation call).observe
            (.cancelReturned cancellation.runId true))
  | failed {reply error} (h : cancellation.stage = .purged)
      (herror : (service.transition cancellation.runId reply
        (·.settle .cancelled service.unixNow none) .cancelled).2 = .error error) :
      CancellationStep service call cancellation (.settle reply)
        ((service.transition cancellation.runId reply
          (·.settle .cancelled service.unixNow none) .cancelled).1.endCancellation call)

theorem stepCancellation_cases {t : Service} {call : ℕ} {can : Cancellation}
    {ev : CancellationEvent} (h : service.stepCancellation call can ev = some t) :
    CancellationStep service call can ev t := by
  unfold stepCancellation at h
  dsimp only at h
  split at h
  case h_1 =>
    split at h
    case isTrue hs =>
      cases h
      exact .awaiting ‹_› hs
    case isFalse hs =>
      cases h
      exact .notAwaiting ‹_› hs
  case h_2 =>
    cases h
    exact .purge ‹_›
  case h_3 reply _ =>
    split at h
    case h_1 error heq =>
      cases h
      have : CancellationStep service call can (.settle reply) _ :=
        .failed ‹_› (congrArg Prod.snd heq)
      rwa [heq] at this
    case h_2 heq =>
      cases h
      have : CancellationStep service call can (.settle reply) _ :=
        .settled ‹_› (congrArg Prod.snd heq)
      rwa [heq] at this
  case h_4 => cases h

/-- Random identifiers are handed out once. -/
def issue (service : Service) (runId leaseId : String) : Option Service :=
  if runId ∈ service.issued ∨ leaseId ∈ service.issued ∨ runId = leaseId
      ∨ isPlanId runId = false ∨ isPlanId leaseId = false then none
  else some { service with issued := runId :: leaseId :: service.issued }

/-- One step of the service. A step that its program point or its inputs exclude is refused. -/
def step (config : ServiceConfig) (service : Service) : ServiceEvent → Option Service
  | .tick unixNow instant =>
    if service.instant ≤ instant then some { service with unixNow, instant } else none
  | .setAgentDefinitions definitions => some { service with agentDefinitions := definitions }
  | .setDisabledAgents disabled => some { service with disabledAgents := disabled }
  | .expireLeases => some service.expireLeases
  | .revokeCapabilityLease leaseId => some (service.revokeCapabilityLease leaseId)
  | .startAgent request ceiling runId leaseId reply =>
    (service.issue runId leaseId).map fun service =>
      service.startAgent config request ceiling runId leaseId reply
  | .fireAgentTrigger request source runId leaseId reply firing write =>
    (service.issue runId leaseId).map fun service =>
      service.fireAgentTrigger config request source runId leaseId reply firing write
  | .retryAgentRun runId newRunId leaseId reply write =>
    (service.issue newRunId leaseId).map fun service =>
      service.retryAgentRun config runId newRunId leaseId reply write
  | .execution runId event =>
    service.executions[runId]?.bind fun execution =>
      service.stepExecution config runId execution event
  | .confirmAgentAction call planId approved =>
    if call ∈ service.confirmations then none
    else some (service.confirmAgentAction call planId approved)
  | .confirmation call event =>
    service.confirmations[call]?.bind fun confirmation =>
      service.stepConfirmation config call confirmation event
  | .cancelAgentRun call runId =>
    if call ∈ service.cancellations then none else some (service.cancelAgentRun call runId)
  | .cancellation call event =>
    service.cancellations[call]?.bind fun cancellation =>
      service.stepCancellation call cancellation event
  | .restart definitions disabled => some (service.restart definitions disabled)

end Service

end FocalDesk
