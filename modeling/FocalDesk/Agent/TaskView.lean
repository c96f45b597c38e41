import FocalDesk.Agent.Label

/-! The task of a run takes the steps of its protocol, and leaves the other runs alone. -/
namespace FocalDesk
open Library Std.ExtTreeMap

variable {cfg : ServiceConfig} {s t : Service} {rid r pl : String}
  {exec : Execution} {ev : ExecutionEvent} {reply : StoreReply}

namespace Service

/-! The task of the run. -/

theorem view_stage (h : s.executions[r]? = some exec) :
    (s.view r).stage = some exec.stage := by
  simp [view, h]

theorem sweepPlans_view : s.sweepPlans.view r = { s.view r with
    plans := {pl | ∃ plan, s.pendingAgentActions[pl]? = some plan ∧ plan.runId = r ∧
      s.instant < plan.expiresAt} } := by
  simp only [view, sweepPlans, getElem?_filter', Option.filter_eq_some_iff,
    decide_eq_true_eq, and_assoc, and_comm]

theorem start_view (he : s.executions[r]? = some exec) (hs : exec.stage = .starting) :
    RunStep cfg.toolExecutor r (s.view r) (executionLabel cfg s r exec (.start reply))
      ((s.start cfg r exec reply).view r) := by
  have hv : (s.view r).stage = some .starting := hs ▸ view_stage he
  unfold start executionLabel
  cases hl : s.lookUp cfg r exec.request with
  | error error =>
    dsimp only
    rw [setStage_view (by rw [hv]; rfl)]
    exact .notStarted hv
  | ok lid =>
    have ht : cfg.toolExecutor := by
      simp only [lookUp, bind_eq_ok, bailIf_eq_ok] at hl
      obtain ⟨_, _, _, ht, _⟩ := hl
      simpa using ht
    dsimp only
    rw [recordAgentEvent_view, setExecution_view]
    exact .started hv ht

theorem cancelRequested_iff : s.cancelRequested r ↔ (s.view r).sender = some true := by
  simp [cancelRequested, view]

theorem advance_view (upd : AgentRunStatus → AgentRunStatus) {state : AgentRunState}
    {kind : Option AgentRunEventKind} {stg : ExecutionStage}
    (hs : s.Keyed) (hid : ∀ run, (upd run).runId = run.runId)
    (hst : ∀ run, (upd run).state = state) (hv : (s.view r).stage.isSome) :
    (s.advance r reply upd kind stg).view r =
      ((s.view r).record state).goto (if s.Savable r reply.save then stg else .returning) := by
  have hok : (s.updateAgentRun r reply.save upd).2 = .ok () ↔ _ := updateAgentRun_ok_iff hs hid
  have hr : (s.updateAgentRun r reply.save upd).1.view r = _ := updateAgentRun_record hst
  have hre : ((s.view r).record state).stage.isSome := hv
  unfold advance
  split
  case h_1 u error heq =>
    rw [heq] at hok hr
    rw [if_neg (fun hsa => by cases hok.mpr hsa), setStage_view (by rwa [hr]), hr]
  case h_2 u heq =>
    rw [heq] at hok hr
    rw [if_pos (hok.mp rfl)]
    split
    · rw [setStage_view (by rwa [recordAgentEvent_view, hr]), recordAgentEvent_view, hr]
    · rw [setStage_view (by rwa [hr]), hr]

theorem callTool_view {t : String} {args : Value}
    (he : s.executions[r]? = some exec)
    (hs : exec.stage = .running true none) :
    RunStep cfg.toolExecutor r (s.view r)
      (executionLabel cfg s r exec (.callTool t args reply))
      ((s.callTool cfg r exec t args reply).view r) := by
  have hv : (s.view r).stage = some (.running true none) := hs ▸ view_stage he
  have hl : (s.recordAgentEvent r reply.event
      (.toolStarted (exec.results.length + 1) t)).authorizeTool cfg exec.leaseId
        t args reply.audit = s.authorizeTool cfg exec.leaseId t args
          reply.audit := recordAgentEvent_writesRuns.authorizeTool
  unfold callTool executionLabel
  dsimp only
  rw [hl]
  cases s.authorizeTool cfg exec.leaseId t args reply.audit with
  | error error =>
    dsimp only
    rw [setStage_view (by rw [recordAgentEvent_view, hv]; rfl), recordAgentEvent_view]
    exact .finished hv (by simp)
  | ok _ =>
    dsimp only
    rw [setStage_view (by simp [observe_view, recordAgentEvent_view, Observation.runId,
      RunView.observe, hv]), observe_view, Observation.runId, if_pos rfl, recordAgentEvent_view]
    exact .calledTool hv

theorem dropGuard_view (hv : (s.view r).stage.isSome) :
    (s.dropGuard r).view r = { s.view r with sender := none }.goto .returned := by
  have hs : ({ s with agentCancellations := s.agentCancellations.erase r } : Service).view r =
      { s.view r with sender := none } := by
    simp [view]
  rw [dropGuard, setStage_view (by rwa [hs]), hs]

theorem insertPlan_view (s : Service) (pl : String) (plan : PendingAgentAction)
    (hp : pl ∉ s.pendingAgentActions) :
    (s.insertPlan pl plan).view r = { s.view r with
      issued := r ∈ pl :: s.issued
      plans := if plan.runId = r then insert pl (s.view r).plans else (s.view r).plans } := by
  have hg : s.pendingAgentActions[pl]? = none := by simpa using hp
  simp only [view, insertPlan, RunView.mk.injEq, true_and, and_true]
  ext id
  by_cases hid : pl = id
  · subst hid
    by_cases hr : plan.runId = r <;> simp [hr, hg]
  · by_cases hr : plan.runId = r <;> simp [hr, getElem?_insert, hid, Ne.symm hid]

theorem propose_view {resp : AgentResponse} {act : AgentProposedAction}
    (he : s.executions[r]? = some exec)
    (hst : exec.stage = .finished (.ok resp))
    (hp : pl ∉ s.pendingAgentActions) :
    RunStep cfg.toolExecutor r (s.view r)
      (executionLabel cfg s r exec (.propose pl reply))
      ((s.propose r exec resp act pl reply).view r) := by
  have hv : (s.view r).stage = some (.finished (.ok resp)) := hst ▸ view_stage he
  have hpl : (s.sweepPlans.view r).plans ⊆ (s.view r).plans := by
    rw [sweepPlans_view]
    rintro pl ⟨plan, hp, hr, -⟩
    exact ⟨plan, hp, hr⟩
  have hs : s.sweepPlans.view r = { s.view r with plans := (s.sweepPlans.view r).plans } := by
    rw [sweepPlans_view]
  have hso : (s.sweepPlans.view r).stage.isSome := by rw [hs, hv]; rfl
  have hf : pl ∉ s.sweepPlans.pendingAgentActions := by
    simp [sweepPlans, mem_filter, hp]
  unfold propose executionLabel
  dsimp only
  split
  · rw [leaveFailed_view hso, hs]
    exact .tableFull hv hpl
  · rw [setStage_view (by rw [insertPlan_view _ _ _ hf]; exact hso),
      insertPlan_view _ _ _ hf, if_pos rfl, hs]
    exact .proposed hv hpl rfl (List.mem_cons_of_mem pl)

/-- The task of a run takes the steps of its protocol. -/
theorem execution_view (hs : s.Keyed) (he : s.executions[r]? = some exec)
    (h : ExecutionStep cfg s r exec ev t) :
    RunStep cfg.toolExecutor r (s.view r) (executionLabel cfg s r exec ev) (t.view r) := by
  have hv := view_stage he
  have hso : (s.view r).stage.isSome := by rw [hv]; rfl
  cases h with
  | start h => exact start_view he h
  | @authorize gr reply h =>
    rw [h] at hv
    cases gr with
    | true =>
      simp only [executionLabel, authorizeRun, if_true]
      rw [setStage_view hso]
      exact .granted hv
    | false =>
      simp only [executionLabel, authorizeRun, Bool.false_eq_true, if_false]
      rw [leaveFailed_view hso]
      exact .denied hv
  | observeCancelled h hc =>
    rw [h] at hv
    simp only [executionLabel, if_pos hc]
    rw [leaveCancelled_view hso]
    exact .observedCancel hv ((cancelRequested_iff).mp hc)
  | observe h hc =>
    rw [h] at hv
    simp only [executionLabel, hc, Bool.false_eq_true, if_false]
    rw [setStage_view hso]
    exact .passed hv (by simp [← cancelRequested_iff, hc])
  | @enqueue reply h =>
    rw [h] at hv
    rw [advance_view ({ · with state := .queued }) hs (fun _ => rfl) (fun _ => rfl) hso]
    by_cases hsa : s.Savable r reply.save
    · simp only [executionLabel, if_pos hsa]
      exact .enqueued hv
    · simp only [executionLabel, if_neg hsa]
      exact .notEnqueued hv
  | cancelQueued h hc =>
    rw [h] at hv
    simp only [executionLabel]
    rw [leaveCancelled_view hso]
    exact .cancelledQueued hv ((cancelRequested_iff).mp hc)
  | acquire h =>
    rw [h] at hv
    rw [setStage_view hso]
    exact .acquired hv
  | @markRunning reply h =>
    rw [h] at hv
    rw [advance_view ({ · with state := .running, startedAtUnix := some s.unixNow }) hs
      (fun _ => rfl) (fun _ => rfl) hso]
    by_cases hsa : s.Savable r reply.save
    · simp only [executionLabel, if_pos hsa]
      exact .admitted hv
    · simp only [executionLabel, if_neg hsa]
      exact .notAdmitted hv
  | poll h =>
    rw [h] at hv
    rw [setStage_view hso]
    exact .polled hv
  | cancelRunning h hc =>
    rw [h] at hv
    simp only [executionLabel]
    rw [leaveCancelled_view hso]
    exact .cancelledRunning hv ((cancelRequested_iff).mp hc)
  | pend h =>
    rw [h] at hv
    rw [setStage_view hso]
    exact .pending hv
  | timeOut h =>
    rw [h] at hv
    rw [setStage_view hso]
    exact .timedOut hv
  | plan h =>
    rw [h] at hv
    rw [recordAgentEvent_view]
    exact .planned hv
  | callTool h => exact callTool_view he h
  | @toolReturned tool args res reply h =>
    rw [h] at hv
    cases res with
    | error error =>
      simp only [executionLabel, toolReturned]
      rw [setStage_view hso]
      exact .finished hv (by simp)
    | ok res =>
      simp only [executionLabel, toolReturned]
      rw [setExecution_view, recordAgentEvent_view, checkpointStep_view]
      exact .toolReturned hv
  | @finish res reply h =>
    rw [h] at hv
    cases res with
    | error error =>
      simp only [executionLabel, finish]
      rw [setStage_view hso]
      exact .finished hv (by simp)
    | ok resp =>
      have hn {u : Service} (hu : u.view r = s.view r) (res : Except String AgentResponse) :
          (u.setStage r (.finished res)).view r = (s.view r).goto (.finished res) := by
        rw [setStage_view (by rwa [hu]), hu]
      simp only [executionLabel, finish]
      split
      · rw [hn recordAgentEvent_view]
        exact .finished hv (by simp)
      · rw [hn rfl]
        exact .finished hv (by simp)
  | concludeError h =>
    rw [h] at hv
    simp only [executionLabel, h]
    rw [leaveFailed_view hso]
    exact .concludedError hv
  | conclude h _ =>
    rw [h] at hv
    simp only [executionLabel, h]
    rw [setStage_view hso]
    exact .concluded hv
  | propose h _ _ hp => exact propose_view he h hp
  | @publish resp reply h =>
    rw [h] at hv
    rw [publish_view hso]
    exact .published hv
  | drop h =>
    rw [h] at hv
    rw [dropGuard_view hso]
    exact .dropped hv

/-! The tasks of other runs. -/

theorem start_view_of_ne (h : rid ≠ r) :
    (s.start cfg rid exec reply).view r = s.view r := by
  unfold start
  split
  · exact setStage_view_of_ne h
  · rw [recordAgentEvent_view, setExecution_view_of_ne h]

theorem advance_view_of_ne {upd : AgentRunStatus → AgentRunStatus}
    {kind : Option AgentRunEventKind} {stg : ExecutionStage} (h : rid ≠ r) :
    (s.advance rid reply upd kind stg).view r = s.view r := by
  have hu := updateAgentRun_view s rid r reply.save upd
  rw [if_neg h] at hu
  unfold advance
  split
  case h_1 heq =>
    rw [heq] at hu
    rw [setStage_view_of_ne h, hu]
  case h_2 heq =>
    rw [heq] at hu
    split
    · rw [setStage_view_of_ne h, recordAgentEvent_view, hu]
    · rw [setStage_view_of_ne h, hu]

theorem callTool_view_of_ne {t : String} {args : Value} (h : rid ≠ r) :
    (s.callTool cfg rid exec t args reply).view r = s.view r := by
  unfold callTool
  dsimp only
  split
  · rw [setStage_view_of_ne h, recordAgentEvent_view]
  · rw [setStage_view_of_ne h, observe_view, Observation.runId, if_neg h, recordAgentEvent_view]

theorem propose_view_of_ne {resp : AgentResponse} {act : AgentProposedAction}
    (h : rid ≠ r) (hp : pl ∉ s.pendingAgentActions) :
    RunStep cfg.toolExecutor r (s.view r) (sweepLabel s r (.propose pl reply))
      ((s.propose rid exec resp act pl reply).view r) := by
  have hf : pl ∉ s.sweepPlans.pendingAgentActions := by
    simp [sweepPlans, mem_filter, hp]
  have hv : ∃ issued : Prop, ((s.view r).issued → issued) ∧
      (s.propose rid exec resp act pl reply).view r = { s.sweepPlans.view r with issued } := by
    unfold propose
    dsimp only
    split
    · exact ⟨_, id, leaveFailed_view_of_ne h⟩
    · refine ⟨r ∈ pl :: s.issued, List.mem_cons_of_mem pl, ?_⟩
      rw [setStage_view_of_ne h, insertPlan_view _ _ _ hf, if_neg h]
      rfl
  obtain ⟨issued, hm, hv⟩ := hv
  rw [hv, sweepPlans_view]
  unfold sweepLabel
  dsimp only
  split
  case isTrue =>
    refine .swept ?_ hm
    rintro pl ⟨plan, hp, hr, -⟩
    exact ⟨plan, hp, hr⟩
  case isFalse hn =>
    have hk : {pl | ∃ plan, s.pendingAgentActions[pl]? = some plan ∧ plan.runId = r ∧
        s.instant < plan.expiresAt} = (s.view r).plans := by
      ext pl
      refine ⟨fun ⟨plan, hp, hr, _⟩ => ⟨plan, hp, hr⟩, fun ⟨plan, hp, hr⟩ =>
        ⟨plan, hp, hr, ?_⟩⟩
      exact Nat.lt_of_not_le fun hle => hn ⟨pl, plan, hp, hr, hle⟩
    rw [hk]
    exact .other hm

/-- The task of another run can only sweep the plans of this one. -/
theorem execution_view_of_ne (hne : rid ≠ r) (h : ExecutionStep cfg s rid exec ev t) :
    RunStep cfg.toolExecutor r (s.view r) (sweepLabel s r ev) (t.view r) := by
  have hs (ht : t.view r = s.view r) : RunStep cfg.toolExecutor r (s.view r) .other
      (t.view r) := by
    rw [ht]
    exact .same
  cases h with
  | start => exact hs (start_view_of_ne hne)
  | @authorize gr =>
    refine hs ?_
    cases gr with
    | true => exact setStage_view_of_ne hne
    | false => exact leaveFailed_view_of_ne hne
  | observeCancelled => exact hs (leaveCancelled_view_of_ne hne)
  | observe => exact hs (setStage_view_of_ne hne)
  | enqueue => exact hs (advance_view_of_ne hne)
  | cancelQueued => exact hs (leaveCancelled_view_of_ne hne)
  | acquire => exact hs (setStage_view_of_ne hne)
  | markRunning => exact hs (advance_view_of_ne hne)
  | poll => exact hs (setStage_view_of_ne hne)
  | cancelRunning => exact hs (leaveCancelled_view_of_ne hne)
  | pend => exact hs (setStage_view_of_ne hne)
  | timeOut => exact hs (setStage_view_of_ne hne)
  | plan => exact hs recordAgentEvent_view
  | callTool => exact hs (callTool_view_of_ne hne)
  | @toolReturned tool args res =>
    refine hs ?_
    cases res with
    | error error => exact setStage_view_of_ne hne
    | ok res =>
      simp only [toolReturned]
      rw [setExecution_view_of_ne hne, recordAgentEvent_view, checkpointStep_view]
  | @finish res =>
    refine hs ?_
    cases res with
    | error error => exact setStage_view_of_ne hne
    | ok resp =>
      simp only [finish]
      rw [setStage_view_of_ne hne]
      split
      · exact recordAgentEvent_view
      · rfl
  | concludeError => exact hs (leaveFailed_view_of_ne hne)
  | conclude => exact hs (setStage_view_of_ne hne)
  | propose _ _ _ hp => exact propose_view_of_ne hne hp
  | publish => exact hs (leave_view_of_ne hne)
  | drop =>
    refine hs ?_
    rw [dropGuard, setStage_view_of_ne hne]
    simp [view, getElem?_erase, hne]

end Service

end FocalDesk
