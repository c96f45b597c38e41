import FocalDesk.Agent.Lifecycle
import FocalDesk.Agent.Tables

/-! The service seen from one run, and what its operations do to that view. -/
namespace FocalDesk
open Library Function Std.ExtTreeMap

variable {cfg : ServiceConfig} {s t u : Service} {runId r lid planId : String}
  {req : AgentRequest} {stat : AgentRunStatus} {saved : Bool} {stage : ExecutionStage}
  {upd : AgentRunStatus → AgentRunStatus} {kind : AgentRunEventKind} {reply : StoreReply}
  {e : ServiceEvent} {call : ℕ} {state : AgentRunState} {g : AgentRunState → AgentRunState}

namespace Service

/-- The stages of the operations on a run that are in flight. -/
def inFlight {α β : Type} (table : BTreeMap ℕ α) (run : α → String) (stage : α → β) (runId : String)
    (call : ℕ) : Option β :=
  (table[call]?.filter fun operation => run operation = runId).map stage

theorem inFlight_update {α β : Type} {tbl table' : BTreeMap ℕ α} {run : α → String}
    {stage : α → β} {op : Option α}
    (h : ∀ c : ℕ, table'[c]? = if call = c then op else tbl[c]?)
    (hr : ∀ x, op = some x → run x = r) :
    inFlight table' run stage r =
      update (inFlight tbl run stage r) call (op.map stage) := by
  funext c
  by_cases hc : call = c
  · subst hc
    cases op with
    | none => simp [inFlight, h]
    | some x => simp [inFlight, h, hr x rfl]
  · simp [inFlight, h, hc, Ne.symm hc]

theorem inFlight_of_ne {α β : Type} {tbl table' : BTreeMap ℕ α} {run : α → String}
    {stage : α → β} {op : Option α}
    (h : ∀ c : ℕ, table'[c]? = if call = c then op else tbl[c]?)
    (hr : ∀ x, op = some x → run x ≠ r)
    (hca : ∀ x, tbl[call]? = some x → run x ≠ r) :
    inFlight table' run stage r = inFlight tbl run stage r := by
  have hn (x : Option α) (hx : ∀ y, x = some y → run y ≠ r) :
      (x.filter fun op => run op = r) = none := by
    cases x with
    | none => rfl
    | some y => simp [hx y rfl]
  funext c
  by_cases hc : call = c
  · subst hc
    simp only [inFlight, h, if_true]
    rw [hn _ hr, hn _ hca]
  · simp [inFlight, h, hc]

def view (s : Service) (runId : String) : RunView :=
  { issued := runId ∈ s.issued
    state := s.agentRuns[runId]?.map (·.state)
    requested := runId ∈ s.agentRequests
    leased := runId ∈ s.runCapabilityLeases
    sender := s.agentCancellations[runId]?
    stage := s.executions[runId]?.map (·.stage)
    plans := {planId | ∃ plan, s.pendingAgentActions[planId]? = some plan ∧ plan.runId = runId}
    confirming := inFlight s.confirmations (·.pending.runId) (·.stage) runId
    cancelling := inFlight s.cancellations (·.runId) (·.stage) runId
    log := s.log.filter fun observation => observation.runId = runId }

/-! Writes of runs. -/

/-- Nothing changes but the recorded runs, in memory and in the store. -/
structure WritesRuns (s t : Service) : Prop where
  eq : t = { s with agentRuns := t.agentRuns, agentRunStore := t.agentRunStore }
  store : t.agentRunStore.isSome = s.agentRunStore.isSome

theorem WritesRuns.refl : WritesRuns s s := ⟨rfl, rfl⟩

theorem WritesRuns.trans (h : WritesRuns s t) (h' : WritesRuns t u) : WritesRuns s u := by
  refine ⟨?_, h'.store.trans h.store⟩
  rw [h'.eq, h.eq]

theorem WritesRuns.view (h : WritesRuns s t) (r : String) :
    t.view r = { s.view r with state := (t.view r).state } := by
  rw [h.eq]
  rfl

theorem WritesRuns.authorizeTool (h : WritesRuns s t) {tool : String} {args : Value}
    {audited : Bool} : t.authorizeTool cfg lid tool args audited =
      s.authorizeTool cfg lid tool args audited := by
  unfold Service.authorizeTool
  rw [h.store, h.eq]

theorem save_writesRuns : WritesRuns s (s.save saved stat req).1 := by
  unfold save
  split
  · exact .refl
  case h_2 hs =>
    split
    · exact ⟨rfl, by simp [hs]⟩
    · exact .refl

theorem insertRun_writesRuns :
    WritesRuns s { s with agentRuns := s.agentRuns.insert runId stat } := ⟨rfl, rfl⟩

theorem putRun_writesRuns : WritesRuns s (s.putRun runId saved stat) := by
  unfold putRun
  dsimp only
  split
  · exact insertRun_writesRuns
  · exact (insertRun_writesRuns).trans save_writesRuns

theorem recordAgentEvent_writesRuns : WritesRuns s (s.recordAgentEvent runId saved kind) := by
  unfold recordAgentEvent
  split
  · exact .refl
  · exact putRun_writesRuns

theorem persistAgentRun_writesRuns : WritesRuns s (s.persistAgentRun saved stat).1 := by
  unfold persistAgentRun
  split
  · exact .refl
  · exact .refl
  · exact save_writesRuns

theorem updateAgentRun_writesRuns : WritesRuns s (s.updateAgentRun runId saved upd).1 := by
  unfold updateAgentRun
  split
  · exact .refl
  · exact (insertRun_writesRuns).trans persistAgentRun_writesRuns

theorem transition_writesRuns : WritesRuns s (s.transition runId reply upd kind).1 := by
  have hu : WritesRuns s (s.updateAgentRun runId reply.save upd).1 := updateAgentRun_writesRuns
  unfold transition
  split
  case h_1 heq => rwa [heq] at hu
  case h_2 heq =>
    rw [heq] at hu
    exact hu.trans recordAgentEvent_writesRuns

theorem WritesRuns.confirmations (h : WritesRuns s t) : t.confirmations = s.confirmations := by
  rw [h.eq]

theorem WritesRuns.cancellations (h : WritesRuns s t) : t.cancellations = s.cancellations := by
  rw [h.eq]

theorem persistAgentRun_agentRuns :
    (s.persistAgentRun saved stat).1.agentRuns = s.agentRuns := by
  unfold persistAgentRun
  split
  · rfl
  · rfl
  · exact save_agentRuns

theorem putRun_agentRuns :
    (s.putRun runId saved stat).agentRuns = s.agentRuns.insert runId stat := by
  unfold putRun
  dsimp only
  split
  · rfl
  · rw [save_agentRuns]

/-- The state of a run after its status was replaced. -/
theorem insert_state (h : s.agentRuns[runId]? = some stat) (new : AgentRunStatus) :
    ((s.agentRuns.insert runId new)[r]?).map (·.state) =
      if runId = r then (s.view r).state.map fun _ => new.state else (s.view r).state := by
  by_cases hr : runId = r
  · subst hr
    simp [view, h]
  · simp [view, getElem?_insert, hr]

theorem recordAgentEvent_view : (s.recordAgentEvent runId saved kind).view r = s.view r := by
  unfold recordAgentEvent
  split
  · rfl
  case h_2 stat hg =>
    rw [(putRun_writesRuns).view r]
    have hs := insert_state (r := r) hg (stat.appendEvent s.unixNow kind)
    have hv : (s.view r).state = s.agentRuns[r]?.map (·.state) := rfl
    simp only [view, putRun_agentRuns, hs]
    split
    case isTrue heq =>
      subst heq
      simp [hg]
    case isFalse => rfl

theorem checkpointStep_view {step : AgentStepResult} :
    (s.checkpointStep runId saved step).view r = s.view r := by
  unfold checkpointStep
  split
  · rfl
  case h_2 stat hg =>
    rw [(putRun_writesRuns).view r]
    simp only [view, putRun_agentRuns, insert_state hg]
    split
    case isTrue heq =>
      subst heq
      simp [hg, AgentRunStatus.checkpoint]
    case isFalse => rfl

theorem updateAgentRun_view (s : Service) (runId r : String) (saved : Bool)
    (upd : AgentRunStatus → AgentRunStatus) :
    (s.updateAgentRun runId saved upd).1.view r =
      if runId = r then
        { s.view r with state := s.agentRuns[r]?.map fun run => (upd run).state }
      else s.view r := by
  unfold updateAgentRun
  split
  case h_1 hg =>
    split
    case isTrue heq =>
      subst heq
      simp [view, hg]
    case isFalse => rfl
  case h_2 stat hg =>
    rw [(persistAgentRun_writesRuns).view r]
    simp only [view, persistAgentRun_agentRuns, insert_state hg]
    split
    case isTrue heq =>
      subst heq
      simp [hg]
    case isFalse => rfl

theorem transition_view (s : Service) (runId r : String) (reply : StoreReply)
    (upd : AgentRunStatus → AgentRunStatus) (kind : AgentRunEventKind) :
    (s.transition runId reply upd kind).1.view r =
      if runId = r then
        { s.view r with state := s.agentRuns[r]?.map fun run => (upd run).state }
      else s.view r := by
  have hu := updateAgentRun_view s runId r reply.save upd
  unfold transition
  split
  case h_1 heq => rwa [heq] at hu
  case h_2 heq =>
    rw [heq] at hu
    rw [recordAgentEvent_view, hu]

theorem transition_view_of_ne (h : runId ≠ r) :
    (s.transition runId reply upd kind).1.view r = s.view r := by
  rw [transition_view, if_neg h]

theorem updateAgentRun_record (hs : ∀ run, (upd run).state = state) :
    (s.updateAgentRun runId saved upd).1.view runId = (s.view runId).record state := by
  rw [updateAgentRun_view, if_pos rfl]
  simp [RunView.record, view, hs, comp_def]

theorem transition_record (hs : ∀ run, (upd run).state = state) :
    (s.transition runId reply upd kind).1.view runId = (s.view runId).record state := by
  rw [transition_view, if_pos rfl]
  simp [RunView.record, view, hs, comp_def]

theorem settle_view {now : ℕ} {err : Option String} :
    (s.transition runId reply (·.settle state now err) kind).1.view runId =
      (s.view runId).record state :=
  transition_record fun _ => rfl

theorem transition_same (hs : ∀ run, (upd run).state = run.state) :
    (s.transition runId reply upd kind).1.view r = s.view r := by
  rw [transition_view]
  simp only [hs]
  exact ite_self _

/-! Moves of a task. -/

theorem modify_stage (executions : BTreeMap String Execution) :
    ((executions.modify runId fun exec => { exec with stage })[r]?).map
        (·.stage) =
      if runId = r then executions[r]?.map fun _ => stage else executions[r]?.map (·.stage) := by
  rw [getElem?_modify]
  by_cases hr : runId = r
  · subst hr
    simp [comp_def]
  · simp [hr]

theorem setStage_view_of_ne (h : runId ≠ r) : (s.setStage runId stage).view r = s.view r := by
  simp only [view, setStage, modify_stage, if_neg h]

theorem setStage_view (h : (s.view runId).stage.isSome) :
    (s.setStage runId stage).view runId = (s.view runId).goto stage := by
  have hg : s.executions[runId]?.isSome := by simpa [view] using h
  obtain ⟨exec, he⟩ := Option.isSome_iff_exists.mp hg
  simp only [view, setStage, modify_stage, if_true, RunView.goto, he, Option.map_some]

theorem setExecution_view_of_ne {exec : Execution} (h : runId ≠ r) :
    (s.setExecution runId exec).view r = s.view r := by
  simp [view, setExecution, getElem?_insert, h]

theorem setExecution_view {exec : Execution} :
    (s.setExecution runId exec).view runId = (s.view runId).goto exec.stage := by
  simp [view, setExecution, RunView.goto]

theorem observe_view {observation : Observation} :
    (s.observe observation).view r =
      if observation.runId = r then (s.view r).observe observation else s.view r := by
  by_cases hr : observation.runId = r <;> simp [view, observe, RunView.observe, hr]

theorem leave_view_of_ne (h : runId ≠ r) : (s.leave runId reply upd kind).view r = s.view r := by
  rw [leave, setStage_view_of_ne h, transition_view_of_ne h]

theorem leaveCancelled_view_of_ne (h : runId ≠ r) :
    (s.leaveCancelled runId reply).view r = s.view r := leave_view_of_ne h

theorem leaveFailed_view_of_ne {err : String} (h : runId ≠ r) :
    (s.leaveFailed runId reply err).view r = s.view r := leave_view_of_ne h

theorem leave_view (h : (s.view runId).stage.isSome) (hs : ∀ run, (upd run).state = state)
    :
    (s.leave runId reply upd kind).view runId = ((s.view runId).record state).goto .returning := by
  have hr : (s.transition runId reply upd kind).1.view runId = _ := transition_record hs
  rw [leave, setStage_view, hr]
  rw [hr]
  exact h

theorem leaveCancelled_view (h : (s.view runId).stage.isSome) :
    (s.leaveCancelled runId reply).view runId =
      ((s.view runId).record .cancelled).goto .returning :=
  leave_view h fun _ => rfl

theorem leaveFailed_view {err : String} (h : (s.view runId).stage.isSome) :
    (s.leaveFailed runId reply err).view runId = ((s.view runId).record .failed).goto .returning :=
  leave_view h fun _ => rfl

theorem publish_view {resp : AgentResponse} (h : (s.view runId).stage.isSome) :
    (s.publish runId resp reply).view runId =
      ((s.view runId).record (finalState resp)).goto .returning :=
  leave_view h fun _ => rfl

/-! Moves of confirmations and cancellations. -/

variable {confirmations : BTreeMap ℕ Confirmation}

theorem confirmations_view {conf : Option Confirmation}
    (h : ∀ c : ℕ, confirmations[c]? = if call = c then conf else s.confirmations[c]?)
    (hr : ∀ x, conf = some x → x.pending.runId = r) :
    ({ s with confirmations } : Service).view r = (s.view r).confirm call (conf.map (·.stage)) := by
  simp only [view, RunView.confirm]
  rw [inFlight_update h hr]

theorem confirmations_view_of_ne {conf : Option Confirmation}
    (h : ∀ c : ℕ, confirmations[c]? = if call = c then conf else s.confirmations[c]?)
    (hr : ∀ x, conf = some x → x.pending.runId ≠ r)
    (hc : ∀ x, s.confirmations[call]? = some x → x.pending.runId ≠ r) :
    ({ s with confirmations } : Service).view r = s.view r := by
  simp only [view]
  rw [inFlight_of_ne h hr hc]

variable {cancellations : BTreeMap ℕ Cancellation}

theorem cancellations_view {can : Option Cancellation}
    (h : ∀ c : ℕ, cancellations[c]? = if call = c then can else s.cancellations[c]?)
    (hr : ∀ x, can = some x → x.runId = r) :
    ({ s with cancellations } : Service).view r = (s.view r).cancel call (can.map (·.stage)) := by
  simp only [view, RunView.cancel]
  rw [inFlight_update h hr]

theorem cancellations_view_of_ne {can : Option Cancellation}
    (h : ∀ c : ℕ, cancellations[c]? = if call = c then can else s.cancellations[c]?)
    (hr : ∀ x, can = some x → x.runId ≠ r)
    (hc : ∀ x, s.cancellations[call]? = some x → x.runId ≠ r) :
    ({ s with cancellations } : Service).view r = s.view r := by
  simp only [view]
  rw [inFlight_of_ne h hr hc]

/-- Whether a run can be updated and saved. -/
def Savable (s : Service) (runId : String) (saved : Bool) : Prop :=
  runId ∈ s.agentRuns ∧ (s.agentRunStore = none ∨ (runId ∈ s.agentRequests ∧ saved = true))

theorem updateAgentRun_ok_iff (hs : s.Keyed) (hid : ∀ run, (upd run).runId = run.runId) :
    (s.updateAgentRun runId saved upd).2 = .ok () ↔ s.Savable runId saved := by
  unfold updateAgentRun
  split
  case h_1 hg => simp [Savable, not_mem_of_getElem? hg]
  case h_2 stat hg =>
    have hru : runId ∈ s.agentRuns := mem_of_getElem? hg
    have hk : (upd stat).runId = runId := (hid stat).trans (hs.runs runId stat hg)
    unfold persistAgentRun
    simp only [hk]
    split
    case h_1 hst => simp [Savable, hru, hst]
    case h_2 hst hr => simp [Savable, hst, not_mem_of_getElem? hr]
    case h_3 store req hst hr =>
      simp only [save, hst]
      split
      case isTrue hsa => simp [Savable, hru, hsa, mem_of_getElem? hr]
      case isFalse hsa => simp [Savable, hst, hsa]

theorem transition_ok_iff (hs : s.Keyed) (hid : ∀ run, (upd run).runId = run.runId) :
    (s.transition runId reply upd kind).2 = .ok () ↔ s.Savable runId reply.save := by
  rw [← updateAgentRun_ok_iff hs hid]
  unfold transition
  split
  case h_1 heq => simp [heq]
  case h_2 heq => simp [heq]

theorem settle_ok_iff {now : ℕ} {err : Option String} (hs : s.Keyed) :
    (s.transition runId reply (·.settle state now err) kind).2 = .ok () ↔
      s.Savable runId reply.save :=
  transition_ok_iff hs fun _ => rfl

end Service

end FocalDesk
