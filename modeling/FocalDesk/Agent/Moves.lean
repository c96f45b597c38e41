import FocalDesk.Agent.CallView
import FocalDesk.Agent.RegistrationView
import FocalDesk.Agent.TaskView

/-! Every step of the service is a step of the protocol of each run. -/
namespace FocalDesk
open Library Option Std.ExtTreeMap

variable {cfg : ServiceConfig} {s t : Service} {runId r lid : String} {e : ServiceEvent}

namespace Service

/-- Runs, requests and stored runs have ids that were handed out. -/
structure Issues (s : Service) : Prop where
  keyed : s.Keyed
  runs : ∀ runId, runId ∈ s.agentRuns → runId ∈ s.issued
  remembers : ∀ runId request, s.Remembers runId request → runId ∈ s.issued

theorem Issues.fresh (hs : s.Issues) (h : runId ∉ s.issued) : s.agentRuns[runId]? = none := by
  have := mt (hs.runs runId) h
  simpa using this

theorem issue_view (h : s.issue runId lid = some t) (r : String) :
    t.view r = { s.view r with issued := r ∈ runId :: lid :: s.issued } := by
  obtain ⟨-, rfl⟩ := issue_eq_some.mp h
  rfl

/-- A registration is a step of the run it is about. -/
theorem registered_step {ts : Bool} {u : Service} (hi : s.issue runId lid = some u)
    (hr : Registered (u.view runId) (t.view runId)) :
    RunStep ts runId (s.view runId) .register (t.view runId) := by
  have hf : ¬ (s.view runId).issued := (issue_eq_some.mp hi).1.1
  have hv : u.view runId = { s.view runId with issued := True } := by
    rw [issue_view hi]
    simp
  rw [hv] at hr
  generalize t.view runId = v at hr
  cases hr with
  | refused => exact .unregistered hf
  | recorded hst hs => exact .registered hf hst hs
  | spawned => exact .spawned hf

/-- For other runs it is no more than an eviction. -/
theorem evicted_step {ts : Bool} {u : Service} (hi : s.issue runId lid = some u)
    (hr : SameOrEvicted (u.view r) (t.view r)) :
    RunStep ts r (s.view r) .other (t.view r) := by
  have hm : (s.view r).issued → r ∈ runId :: lid :: s.issued := fun h => by
    simp [show r ∈ s.issued from h]
  rw [issue_view hi] at hr
  rcases hr with h | ⟨st, req, leased, hs, ht, h⟩
  · rw [h]
    exact .other hm
  · rw [h]
    exact .evicted hs ht hm

/-- Every step of the service is a step of the protocol of each run. -/
theorem view_step (hs : s.Issues) (h : s.step cfg e = some t) (r : String) :
    RunStep cfg.toolExecutor r (s.view r) (label cfg s r e) (t.view r) := by
  cases e with
  | tick unixNow instant =>
    simp only [step] at h
    split at h
    · cases h
      exact .same
    · cases h
  | setAgentDefinitions defs =>
    cases h
    exact .same
  | setDisabledAgents disabled =>
    cases h
    exact .same
  | expireLeases =>
    cases h
    exact .same
  | revokeCapabilityLease lid =>
    cases h
    exact .same
  | startAgent request ceiling runId lid reply =>
    obtain ⟨u, hu, rfl⟩ := map_eq_some_iff.mp h
    simp only [label]
    split
    case isTrue hr =>
      subst hr
      obtain ⟨hf, rfl⟩ := issue_eq_some.mp hu
      exact registered_step hu (startAgent_view (hs.fresh hf.1))
    case isFalse hr => exact evicted_step hu (startAgent_view_of_ne hr)
  | fireAgentTrigger request src runId lid reply fire write =>
    obtain ⟨u, hu, rfl⟩ := map_eq_some_iff.mp h
    simp only [label]
    split
    case isTrue hr =>
      subst hr
      obtain ⟨hf, rfl⟩ := issue_eq_some.mp hu
      exact registered_step hu (fireAgentTrigger_view (hs.fresh hf.1))
    case isFalse hr => exact evicted_step hu (fireAgentTrigger_view_of_ne hr)
  | retryAgentRun runId nrid lid reply write =>
    obtain ⟨u, hu, rfl⟩ := map_eq_some_iff.mp h
    simp only [label]
    split
    case isTrue hr =>
      subst hr
      obtain ⟨hf, rfl⟩ := issue_eq_some.mp hu
      exact registered_step hu (retryAgentRun_view (hs.fresh hf.1))
    case isFalse hr => exact evicted_step hu (retryAgentRun_view_of_ne hr)
  | execution runId ev =>
    obtain ⟨execution, he, hse⟩ := bind_eq_some_iff.mp h
    simp only [label, he]
    split
    case isTrue hr =>
      subst hr
      exact execution_view hs.keyed he (stepExecution_cases hse)
    case isFalse hr => exact execution_view_of_ne hr (stepExecution_cases hse)
  | confirmAgentAction call pl approved =>
    simp only [step] at h
    split at h
    case isTrue => cases h
    case isFalse hc =>
      cases h
      exact confirmAgentAction_view hc
  | confirmation call ev =>
    obtain ⟨confirmation, hc, hse⟩ := bind_eq_some_iff.mp h
    simp only [label, hc]
    split
    case isTrue hr => exact confirmation_view hc hr (stepConfirmation_cases hse)
    case isFalse hr =>
      rw [confirmation_view_of_ne hc hr (stepConfirmation_cases hse)]
      exact .same
  | cancelAgentRun call runId =>
    simp only [step] at h
    split at h
    case isTrue => cases h
    case isFalse hc =>
      cases h
      exact cancelAgentRun_view hc
  | cancellation call ev =>
    obtain ⟨cancellation, hc, hse⟩ := bind_eq_some_iff.mp h
    simp only [label, hc]
    split
    case isTrue hr => exact cancellation_view hs.keyed hc hr (stepCancellation_cases hse)
    case isFalse hr =>
      rw [cancellation_view_of_ne hc hr (stepCancellation_cases hse)]
      exact .same
  | restart defs disabled =>
    cases h
    obtain ⟨state, req, hv, hsa⟩ := restart_view s r defs disabled
    rw [hv]
    refine .restarted fun st hst => ⟨(hsa st hst).1, ?_⟩
    have hk : Kept _ s (s.restart defs disabled) := restart_preserves hs.keyed
    rcases hk.runs r (hsa st hst).2 with hr | ⟨request, hr | hr⟩
    · exact hs.runs r hr
    · exact hs.remembers r request hr
    · exact hr.elim

theorem label_of_registers (h : registers e = some r) : label cfg s r e = .register := by
  cases e <;> cases h <;> simp [label]

theorem issued_of_registers (hs : s.Issues) (h : s.step cfg e = some t) (hr : registers e = some r)
    : r ∈ t.issued := by
  have hst := view_step hs h r
  rw [label_of_registers hr] at hst
  exact hst.issued_of_register

theorem step_issues (hs : s.Issues) (h : s.step cfg e = some t) : t.Issues := by
  have hk := step_keeps h hs.keyed
  have hm (r : String) (hr : r ∈ s.issued) : r ∈ t.issued := (view_step hs h r).issued_mono hr
  have hre (r : String) (hr : registers e = some r) : r ∈ t.issued := issued_of_registers hs h hr
  have hme (r : String) (request : AgentRequest) (hr : t.Remembers r request) :
      r ∈ t.issued := by
    rcases hk.remembers r request hr with hr | hr
    · exact hm r (hs.remembers r request hr)
    · exact hre r hr.2
  refine ⟨hk.keyed, fun r hr => ?_, hme⟩
  rcases hk.runs r hr with hr | ⟨request, hr | hr⟩
  · exact hm r (hs.runs r hr)
  · exact hm r (hs.remembers r request hr)
  · exact hre r hr.2

end Service

end FocalDesk

/-! Steps that move a task, a confirmation or a cancellation start no task and leave the leases
alone. -/
namespace FocalDesk
open Library

variable {cfg : ServiceConfig} {s t u : Service} {runId r lid : String}
  {req : AgentRequest} {execution : Execution} {e : ServiceEvent} {reply : StoreReply}

namespace Service

/-- A task at its first program point. -/
def Starts (s : Service) (runId : String) (execution : Execution) : Prop :=
  s.executions[runId]? = some execution ∧ execution.stage = .starting

/-- Nothing starts in `t` that did not start in `s`. -/
def StartsNone (s t : Service) : Prop := ∀ runId execution, t.Starts runId execution →
  s.Starts runId execution

theorem StartsNone.refl : StartsNone s s := fun _ _ => id

theorem StartsNone.trans (h : StartsNone s t) (h' : StartsNone t u) : StartsNone s u :=
  fun runId execution hu => h runId execution (h' runId execution hu)

theorem startsNone_of_eq (h : t.executions = s.executions) : StartsNone s t := by
  intro runId execution ⟨hg, hs⟩
  exact ⟨h ▸ hg, hs⟩

/-- What a step other than a registration leaves as it is. -/
structure Moves (s t : Service) : Prop where
  startsNone : StartsNone s t
  leases : t.capabilityLeases = s.capabilityLeases

theorem Moves.refl : Moves s s := ⟨.refl, rfl⟩

theorem Moves.trans (h : Moves s t) (h' : Moves t u) : Moves s u :=
  ⟨h.startsNone.trans h'.startsNone, h'.leases.trans h.leases⟩

theorem moves_of_eq (h : t.executions = s.executions) (hl : t.capabilityLeases = s.capabilityLeases)
    : Moves s t :=
  ⟨startsNone_of_eq h, hl⟩

theorem WritesRuns.moves (h : WritesRuns s t) : Moves s t :=
  moves_of_eq (by rw [h.eq]) (by rw [h.eq])

theorem setStage_moves {stg : ExecutionStage} (h : stg ≠ .starting) :
    Moves s (s.setStage runId stg) := by
  refine ⟨?_, rfl⟩
  intro r execution ⟨hg, hs⟩
  rw [setStage, Std.ExtTreeMap.getElem?_modify] at hg
  split at hg
  case isTrue =>
    obtain ⟨_, -, rfl⟩ := Option.map_eq_some_iff.mp hg
    exact absurd hs h
  case isFalse => exact ⟨hg, hs⟩

theorem setExecution_moves (h : execution.stage ≠ .starting) :
    Moves s (s.setExecution runId execution) := by
  refine ⟨?_, rfl⟩
  intro r execution' ⟨hg, hs⟩
  rw [setExecution, Std.ExtTreeMap.getElem?_insert] at hg
  split at hg
  case isTrue =>
    cases hg
    exact absurd hs h
  case isFalse => exact ⟨hg, hs⟩

variable {upd : AgentRunStatus → AgentRunStatus}

theorem leave_moves {kind : AgentRunEventKind} : Moves s (s.leave runId reply upd kind) :=
  transition_writesRuns.moves.trans (setStage_moves nofun)

theorem advance_moves {kind : Option AgentRunEventKind} {stg : ExecutionStage}
    (h : stg ≠ .starting) :
    Moves s (s.advance runId reply upd kind stg) := by
  have hu : Moves s (s.updateAgentRun runId reply.save upd).1 := updateAgentRun_writesRuns.moves
  unfold advance
  split
  case h_1 heq =>
    rw [heq] at hu
    exact hu.trans (setStage_moves nofun)
  case h_2 heq =>
    rw [heq] at hu
    split
    · exact (hu.trans recordAgentEvent_writesRuns.moves).trans (setStage_moves h)
    · exact hu.trans (setStage_moves h)

theorem checkpointStep_writesRuns {saved : Bool} {step : AgentStepResult} :
    WritesRuns s (s.checkpointStep runId saved step) := by
  unfold checkpointStep
  split
  · exact .refl
  · exact putRun_writesRuns

theorem leaveFailed_moves {err : String} : Moves s (s.leaveFailed runId reply err) :=
  leave_moves

theorem observe_moves {observation : Observation} : Moves s (s.observe observation) :=
  moves_of_eq rfl rfl

theorem sweepPlans_moves : Moves s s.sweepPlans := moves_of_eq rfl rfl

theorem insertPlan_moves {pl : String} {plan : PendingAgentAction} :
    Moves s (s.insertPlan pl plan) := moves_of_eq rfl rfl

theorem dropGuard_moves : Moves s (s.dropGuard runId) := by
  have hs : Moves s { s with agentCancellations := s.agentCancellations.erase runId } :=
    moves_of_eq rfl rfl
  exact hs.trans (setStage_moves nofun)

/-- The steps of a task. -/
theorem stepExecution_moves {ev : ExecutionEvent}
    (h : s.stepExecution cfg runId execution ev = some t) : Moves s t := by
  cases stepExecution_cases h with
  | start =>
    unfold start
    split
    · exact setStage_moves (by simp)
    · exact (setExecution_moves (by simp)).trans recordAgentEvent_writesRuns.moves
  | @authorize gr =>
    cases gr with
    | true => exact setStage_moves (by simp)
    | false => exact leave_moves
  | observeCancelled => exact leave_moves
  | observe => exact setStage_moves (by simp)
  | enqueue => exact advance_moves (by simp)
  | cancelQueued => exact leave_moves
  | acquire => exact setStage_moves (by simp)
  | markRunning => exact advance_moves (by simp)
  | poll => exact setStage_moves (by simp)
  | cancelRunning => exact leave_moves
  | pend => exact setStage_moves (by simp)
  | timeOut => exact setStage_moves (by simp)
  | plan => exact recordAgentEvent_writesRuns.moves
  | callTool =>
    unfold callTool
    dsimp only
    split
    · exact recordAgentEvent_writesRuns.moves.trans (setStage_moves (by simp))
    · exact (recordAgentEvent_writesRuns.moves.trans observe_moves).trans
        (setStage_moves (by simp))
  | @toolReturned tool args res =>
    cases res with
    | error error => exact setStage_moves (by simp)
    | ok res =>
      exact ((checkpointStep_writesRuns).trans recordAgentEvent_writesRuns).moves.trans
        (setExecution_moves (by simp))
  | @finish res =>
    cases res with
    | error error => exact setStage_moves (by simp)
    | ok resp =>
      simp only [finish]
      split
      · exact recordAgentEvent_writesRuns.moves.trans (setStage_moves (by simp))
      · exact setStage_moves (by simp)
  | concludeError => exact leave_moves
  | conclude => exact setStage_moves (by simp)
  | propose =>
    unfold propose
    dsimp only
    split
    · exact (sweepPlans_moves).trans leaveFailed_moves
    · exact ((sweepPlans_moves).trans insertPlan_moves).trans (setStage_moves (by simp))
  | publish => exact leave_moves
  | drop => exact dropGuard_moves

theorem stepConfirmation_moves {conf : Confirmation} {ev : ConfirmationEvent}
    {call : ℕ} (h : s.stepConfirmation cfg call conf ev = some t) :
    Moves s t := by
  cases stepConfirmation_cases h with
  | resolve => exact transition_writesRuns.moves.trans (moves_of_eq rfl rfl)
  | _ => exact moves_of_eq rfl rfl

theorem stepCancellation_moves {can : Cancellation} {ev : CancellationEvent}
    {call : ℕ} (h : s.stepCancellation call can ev = some t) : Moves s t := by
  cases stepCancellation_cases h with
  | settled => exact transition_writesRuns.moves.trans (moves_of_eq rfl rfl)
  | failed => exact transition_writesRuns.moves.trans (moves_of_eq rfl rfl)
  | _ => exact moves_of_eq rfl rfl

end Service

end FocalDesk
