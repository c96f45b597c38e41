import FocalDesk.Agent.View

/-! What each step of the service means for a run. -/
namespace FocalDesk
open Library

variable {config : ServiceConfig} {s : Service} {r : String} {execution : Execution}
  {event : ExecutionEvent}

namespace Service

instance (s : Service) (runId : String) (saved : Bool) : Decidable (s.Savable runId saved) :=
  inferInstanceAs (Decidable (_ ∧ _))

/-- The table holds a plan of the run that the next sweep drops. -/
def HasExpiredPlan (s : Service) (runId : String) : Prop :=
  ∃ (planId : String) (plan : PendingAgentAction), s.pendingAgentActions[planId]? = some plan ∧
    plan.runId = runId ∧ plan.expiresAt ≤ s.instant

def executionLabel (config : ServiceConfig) (s : Service) (runId : String) (execution : Execution)
    : ExecutionEvent → RunLabel
  | .start _ =>
    match s.lookUp config runId execution.request with
    | .ok _ => .advance
    | .error _ => .abandon
  | .authorize granted _ => if granted then .advance else .settle
  | .observe _ => if s.cancelRequested runId then .settle else .advance
  | .enqueue reply | .markRunning reply => if s.Savable runId reply.save then .advance else .abandon
  | .acquire => .acquire
  | .poll => .poll
  | .cancel _ => .settle
  | .pend | .plan _ | .drop => .advance
  | .callTool tool arguments reply =>
    match s.authorizeTool config execution.leaseId tool arguments reply.audit with
    | .ok _ => .tool
    | .error _ => .finish
  | .toolReturned result _ =>
    match result with
    | .ok _ => .advance
    | .error _ => .finish
  | .finish _ _ => .finish
  | .timeOut => .abandon
  | .conclude _ =>
    match execution.stage with
    | .finished (.error _) => .settle
    | _ => .advance
  | .propose _ _ =>
    if maxPendingAgentActions ≤ s.sweepPlans.pendingAgentActions.size then .settle else .propose
  | .publish _ => .publish

open Classical in
/-- What a step of a task means for the other runs. -/
noncomputable def sweepLabel (s : Service) (runId : String) : ExecutionEvent → RunLabel
  | .propose _ _ => if s.HasExpiredPlan runId then .sweep else .other
  | _ => .other

def confirmationLabel (config : ServiceConfig) (s : Service) (confirmation : Confirmation) :
    ConfirmationEvent → RunLabel
  | .execute reply =>
    if config.toolExecutor = false then .confirm
    else
      match s.authorizeTool config confirmation.pending.leaseId confirmation.pending.action.tool
          confirmation.pending.action.arguments reply.audit with
      | .ok _ => .confirmedTool
      | .error _ => .confirm
  | .resolve _ => .resolve
  | .check | .prompt _ | .executed _ => .confirm

def cancellationLabel (s : Service) (cancellation : Cancellation) : CancellationEvent → RunLabel
  | .settle reply => if s.Savable cancellation.runId reply.save then .settleCancel else .failCancel
  | .observe | .purge => .other

/-- A cancellation that finds the sender of the run and a task to receive. -/
def Sends (s : Service) (runId : String) : Prop :=
  isPlanId runId = true ∧ s.agentCancellations[runId]?.isSome = true ∧ s.hasReceiver runId = true

instance (s : Service) (runId : String) : Decidable (s.Sends runId) :=
  inferInstanceAs (Decidable (_ ∧ _))

/-- What a step of the service means for the run `r`. -/
noncomputable def label (config : ServiceConfig) (s : Service) (r : String) :
    ServiceEvent → RunLabel
  | .startAgent _ _ runId _ _ | .fireAgentTrigger _ _ runId _ _ _ _
  | .retryAgentRun _ runId _ _ _ => if runId = r then .register else .other
  | .execution runId event =>
    if runId = r then
      match s.executions[runId]? with
      | some execution => executionLabel config s runId execution event
      | none => .other
    else sweepLabel s r event
  | .confirmAgentAction _ planId _ =>
    match s.pendingAgentActions[planId]? with
    | some plan => if isPlanId planId = true ∧ plan.runId = r then .take else .other
    | none => .other
  | .confirmation call event =>
    match s.confirmations[call]? with
    | some confirmation =>
      if confirmation.pending.runId = r then confirmationLabel config s confirmation event
      else .other
    | none => .other
  | .cancelAgentRun _ runId => if runId = r ∧ s.Sends runId then .send else .other
  | .cancellation call event =>
    match s.cancellations[call]? with
    | some cancellation =>
      if cancellation.runId = r then cancellationLabel s cancellation event else .other
    | none => .other
  | .restart _ _ => .restart
  | .tick _ _ | .setAgentDefinitions _ | .setDisabledAgents _ | .expireLeases
  | .revokeCapabilityLease _ => .other

/-- Which steps have the labels that a result about a run excludes. -/
structure LabelSpec (config : ServiceConfig) (s : Service) (r : String) (e : ServiceEvent)
    (l : RunLabel) : Prop where
  task : l = .abandon ∨ l = .settle ∨ l = .tool ∨ l = .finish → ∃ event execution,
    e = .execution r event ∧ s.executions[r]? = some execution ∧
      executionLabel config s r execution event = l
  sweep : l = .sweep → ∃ runId planId reply, e = .execution runId (.propose planId reply) ∧
    s.HasExpiredPlan r
  resolve : l = .resolve → ∃ call confirmation reply, e = .confirmation call (.resolve reply) ∧
    s.confirmations[call]? = some confirmation ∧ confirmation.pending.runId = r
  send : l = .send → ∃ call, e = .cancelAgentRun call r ∧ s.Sends r
  settleCancel : l = .settleCancel → ∃ call cancellation reply,
    e = .cancellation call (.settle reply) ∧ s.cancellations[call]? = some cancellation ∧
      cancellation.runId = r ∧ s.Savable r reply.save
  restart : l = .restart → ∃ definitions disabled, e = .restart definitions disabled

theorem label_spec (config : ServiceConfig) (s : Service) (r : String) (e : ServiceEvent) :
    LabelSpec config s r e (label config s r e) := by
  cases e with
  | execution rid event =>
    cases event with
    | toolReturned res reply =>
      cases res <;> constructor <;> grind [label, executionLabel, sweepLabel]
    | _ => constructor <;> grind [label, executionLabel, sweepLabel]
  | confirmation call event => cases event <;> constructor <;> grind [label, confirmationLabel]
  | cancellation call event => cases event <;> constructor <;> grind [label, cancellationLabel]
  | _ => constructor <;> grind [label]

theorem executionLabel_eq_abandon (h : executionLabel config s r execution event = .abandon) :
    (∃ reply err, event = .start reply ∧ s.lookUp config r execution.request = .error err) ∨
      (∃ reply, (event = .enqueue reply ∨ event = .markRunning reply) ∧ ¬ s.Savable r reply.save) ∨
        event = .timeOut := by
  cases event with
  | toolReturned res reply => cases res <;> grind [executionLabel]
  | _ => grind [executionLabel]

end Service

end FocalDesk
