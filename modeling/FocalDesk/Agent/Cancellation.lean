import FocalDesk.Agent.Confirmation

/-!
A cancellation that was reported is final, as long as the task of the run takes it at its
next look and no confirmation of the run is in flight.
-/
namespace FocalDesk
open Library List Option

variable {ts : Bool} {runId r : String} {v v' : RunView} {l : RunLabel}
  {config : ServiceConfig} {s t : Service} {e : ServiceEvent}

/-- The stages from which a task still looks at its cancellation channel. -/
def ExecutionStage.listens : ExecutionStage → Bool
  | .starting | .permission | .permitted | .enqueuing | .queued | .admitted | .running _ _ => true
  | .finished _ | .publishing _ | .returning | .returned => false

def ExecutionStage.isOver : ExecutionStage → Bool
  | .returning | .returned => true
  | _ => false

namespace RunView

/-- The task of the run will take the cancellation. -/
def Told (v : RunView) : Prop :=
  v.sender = some true ∧ ∃ stage, v.stage = some stage ∧ stage.listens = true

/-- The run is over and cancelled, and nothing is left that could change that. -/
structure Ended (v : RunView) : Prop where
  stage : v.stage = some .returning ∨ v.stage = some .returned
  state : ∀ state, v.state = some state → state = .cancelled
  unplanned : v.Unplanned

/-- No tool call of the run follows a cancellation that was reported. -/
def SilentAfterCancel (runId : String) (log : List Observation) : Prop :=
  log.Pairwise fun a b => a = .cancelReturned runId true → ∀ tool, b ≠ .toolExecuted runId tool

structure CancelFinal (runId : String) (v : RunView) : Prop where
  cancelled : .cancelReturned runId true ∈ v.log → v.Told ∨ v.Ended
  silent : SilentAfterCancel runId v.log

end RunView

/-- The steps after which a cancellation of the run is still final. -/
def RunLabel.Obeying (v : RunView) : RunLabel → Prop
  | .restart => False
  | .abandon | .tool | .finish => v.sender ≠ some true
  | .settle => v.sender = some true → v.stage ≠ some .permission
  | .send => (∃ stage, v.stage = some stage ∧ stage.listens = true) ∨ v.Ended
  | .settleCancel => ∀ call, v.confirming call = none
  | _ => True

namespace RunView

/-- While a task listens its run has no plan, in the table or with a confirmation. -/
theorem Told.unplanned (h : v.Told) (hv : v.Sound ts) : v.Unplanned := by
  obtain ⟨-, stage, hs, hl⟩ := h
  cases stage with
  | starting | permission | permitted | enqueuing | queued | admitted | running =>
    exact (hv.executing _ _ hs rfl).unplanned
  | _ => cases hl

namespace CancelFinal

theorem unplanned (h : v.CancelFinal runId) (hv : v.Sound ts)
    (hl : .cancelReturned runId true ∈ v.log) : v.Unplanned := by
  rcases h.cancelled hl with h | h
  · exact h.unplanned hv
  · exact h.unplanned

/-- Nothing was reported while a confirmation is in flight. -/
theorem not_reported {call : ℕ} {stage : ConfirmationStage} (h : v.CancelFinal runId)
    (hv : v.Sound ts) (hc : v.confirming call = some stage) :
    .cancelReturned runId true ∉ v.log := by
  intro hl
  rw [(h.unplanned hv hl).confirming call] at hc
  cases hc

theorem of_not_reported (h : v.CancelFinal runId) (hl : .cancelReturned runId true ∉ v.log)
    (hs : v'.log = v.log) : v'.CancelFinal runId :=
  ⟨fun h' => absurd (hs ▸ h') hl, hs ▸ h.silent⟩

/-- A step that leaves the sender and the task alone, or the run cancelled. -/
theorem of_same (h : v.CancelFinal runId) (hl : v'.log = v.log) (ht : v.Told → v'.Told)
    (he : v.Ended → v'.Ended) : v'.CancelFinal runId :=
  ⟨fun h' => (h.cancelled (hl ▸ h')).imp ht he, hl ▸ h.silent⟩

variable {stg : ExecutionStage}

/-- A task that listens moves on and still listens. -/
theorem goto {stage' : ExecutionStage} (h : v.CancelFinal runId) (hst : v.stage = some stg)
    (hl : stg.listens) (hl' : stage'.listens) (hlo : v'.log = v.log) (hs : v'.sender = v.sender)
    (hg : v'.stage = some stage') : v'.CancelFinal runId := by
  refine h.of_same hlo (fun ht => ⟨hs.trans ht.1, stage', hg, hl'⟩) fun he => ?_
  rcases he.stage with ho | ho <;> cases hst.symm.trans ho <;> cases hl

/-- A task takes the cancellation. -/
theorem take {st : AgentRunState} (h : v.CancelFinal runId) (hv : v.Sound ts)
    (hs : v.stage = some stg) (he : stg.expected = some st) :
    ((v.record .cancelled).goto .returning).CancelFinal runId := by
  have hn := (hv.executing stg st hs he).unplanned
  refine ⟨fun _ => .inr ⟨.inl rfl, fun x hx => ?_, ⟨hn.plans, hn.confirming⟩⟩, h.silent⟩
  obtain ⟨_, -, hx⟩ := map_eq_some_iff.mp hx
  exact hx.symm

/-- Nothing was reported to a task that runs and was told nothing. -/
theorem not_reported_of_stage (h : v.CancelFinal runId) (hs : v.stage = some stg)
    (ho : stg ≠ .returning) (ho' : stg ≠ .returned) (ht : stg.listens → v.sender ≠ some true)
    : .cancelReturned runId true ∉ v.log := by
  intro hlo
  rcases h.cancelled hlo with ⟨hse, stage', hs', hl⟩ | he
  · cases hs.symm.trans hs'
    exact ht hl hse
  · rcases he.stage with h' | h'
    · exact ho (some.inj (hs.symm.trans h'))
    · exact ho' (some.inj (hs.symm.trans h'))

/-- An observation that is no tool call and no reported cancellation. -/
theorem observe {observation : Observation} (h : v.CancelFinal runId)
    (ht : ∀ t, observation ≠ .toolExecuted runId t) (hc : observation ≠ .cancelReturned runId true)
    :
    (v.observe observation).CancelFinal runId := by
  refine ⟨fun hl => ?_, ?_⟩
  · rcases mem_append.mp hl with hl | hl
    · exact (h.cancelled hl).imp (fun h => h) fun h => ⟨h.1, h.2, ⟨h.3.1, h.3.2⟩⟩
    · exact absurd (mem_singleton.mp hl).symm hc
  · refine pairwise_append.mpr ⟨h.silent, pairwise_singleton .., fun a _ b hb _ => ?_⟩
    rw [mem_singleton.mp hb]
    exact ht

theorem report (h : v.CancelFinal runId) (hf : v.Told ∨ v.Ended) :
    (v.observe (.cancelReturned runId true)).CancelFinal runId := by
  refine ⟨fun _ => hf.imp (fun h => h) fun h => ⟨h.1, h.2, ⟨h.3.1, h.3.2⟩⟩, ?_⟩
  refine pairwise_append.mpr ⟨h.silent, pairwise_singleton .., fun a _ b hb _ => ?_⟩
  rw [mem_singleton.mp hb]
  nofun

/-- A tool call while no cancellation was reported. -/
theorem call {t : String} (h : v.CancelFinal runId) (hl : .cancelReturned runId true ∉ v.log) :
    (v.observe (.toolExecuted runId t)).CancelFinal runId := by
  refine ⟨fun h' => ?_, ?_⟩
  · rcases mem_append.mp h' with h' | h'
    · exact absurd h' hl
    · cases mem_singleton.mp h'
  · refine pairwise_append.mpr ⟨h.silent, pairwise_singleton .., fun a ha _ _ hc => ?_⟩
    exact absurd (hc ▸ ha) hl

end CancelFinal

end RunView

/-- Every step that obeys a cancellation keeps it final. -/
theorem RunStep.keeps_cancelFinal (h : RunStep ts runId v l v') (hv : v.Sound ts) (hl : l.Obeying v)
    (hc : v.CancelFinal runId) : v'.CancelFinal runId := by
  have hf (h : ¬ v.issued) : .cancelReturned runId true ∉ v.log := by
    have hn : v.stage = none := by simpa using mt hv.issued h
    intro hlo
    rcases hc.cancelled hlo with ⟨-, stage, hst, -⟩ | he
    · cases hn.symm.trans hst
    · rcases he.stage with hst | hst <;> cases hn.symm.trans hst
  have recorded (st : AgentRunState) (hsa : (v.record .cancelled).state = some st) :
      st = .cancelled := by
    obtain ⟨_, -, hsa⟩ := map_eq_some_iff.mp hsa
    exact hsa.symm
  cases h with
  | other => exact hc.of_same rfl id fun h => ⟨h.1, h.2, ⟨h.3.1, h.3.2⟩⟩
  | evicted => exact hc.of_same rfl id fun h => ⟨h.1, (by simp), ⟨h.3.1, h.3.2⟩⟩
  | swept hpl =>
    exact hc.of_same rfl id fun h => ⟨h.1, h.2, ⟨Set.subset_eq_empty hpl h.3.1, h.3.2⟩⟩
  | restarted hsa => exact hl.elim
  | unregistered h => exact hc.of_not_reported (hf h) rfl
  | registered h => exact hc.of_not_reported (hf h) rfl
  | spawned h => exact hc.of_not_reported (hf h) rfl
  | started h | granted h | passed h | enqueued h | acquired h | admitted h | polled h | pending h
  | toolReturned h => exact hc.goto h rfl rfl rfl rfl rfl
  | notStarted h | notEnqueued h | notAdmitted h | timedOut h | finished h =>
    exact hc.of_not_reported (hc.not_reported_of_stage h (by simp) (by simp) fun _ => hl) rfl
  | denied h =>
    have hlo := hc.not_reported_of_stage h (by simp) (by simp) fun _ hs => hl hs h
    exact hc.of_not_reported hlo rfl
  | observedCancel h | cancelledQueued h | cancelledRunning h => exact hc.take hv h rfl
  | calledTool h =>
    have hlo := hc.not_reported_of_stage h (by simp) (by simp) fun _ => hl
    exact (hc.call hlo).goto h rfl rfl rfl rfl rfl
  | planned => exact hc
  | concludedError h | concluded h | tableFull h | proposed h | published h =>
    exact hc.of_not_reported
      (hc.not_reported_of_stage h (by simp) (by simp) fun hli => by cases hli) rfl
  | dropped h =>
    refine hc.of_same rfl (fun hto => ?_) fun he =>
      ⟨.inr rfl, he.2, ⟨he.3.1, he.3.2⟩⟩
    obtain ⟨_, stage, hst, hli⟩ := hto
    cases h.symm.trans hst
    cases hli
  | taken hp _ =>
    refine hc.of_not_reported (fun hlo => ?_) rfl
    rw [(hc.unplanned hv hlo).plans] at hp
    exact hp
  | moved hca hm => exact hc.of_not_reported (hc.not_reported hv hca) rfl
  | ended hca htl => exact hc.of_not_reported (hc.not_reported hv hca) rfl
  | calledConfirmed hca =>
    have hlo := hc.not_reported hv hca
    exact (hc.call hlo).of_not_reported (by simpa [RunView.observe] using hlo) rfl
  | resolved hca => exact hc.of_not_reported (hc.not_reported hv hca) rfl
  | sent =>
    have hse : { v with sender := some true }.CancelFinal runId :=
      hc.of_same rfl (fun ht => ⟨rfl, ht.2⟩) fun h => ⟨h.1, h.2, ⟨h.3.1, h.3.2⟩⟩
    exact hse.report (hl.imp (fun h => ⟨rfl, h⟩) fun h => ⟨h.1, h.2, ⟨h.3.1, h.3.2⟩⟩)
  | unreceived => exact hc.observe (by simp) (by simp)
  | absent | lookedAwaiting => exact hc.of_same rfl id fun h => ⟨h.1, h.2, ⟨h.3.1, h.3.2⟩⟩
  | @looked call =>
    have he : (v.cancel call none).CancelFinal runId :=
      hc.of_same rfl id fun h => ⟨h.1, h.2, ⟨h.3.1, h.3.2⟩⟩
    exact he.observe (by simp) (by simp)
  | purged => exact hc.of_same rfl id fun h => ⟨h.1, h.2, ⟨rfl, h.3.2⟩⟩
  | @cancelSettled call hca =>
    have hcn : ((v.record .cancelled).cancel call none).CancelFinal runId :=
      hc.of_same rfl id fun h => ⟨h.1, recorded, ⟨h.3.1, h.3.2⟩⟩
    exact hcn.report (.inr
      ⟨hv.cancelling call _ hca (by simp), recorded, ⟨hv.purged call hca, hl⟩⟩)
  | cancelFailed => exact hc.of_same rfl id fun h => ⟨h.1, recorded, ⟨h.3.1, h.3.2⟩⟩

namespace Service

/-- What a task does once its cancellation was requested, if it is to take it: it gets to
its next look at the channel without a tool call, an answer, a timeout or an exit. -/
def TaskObeys (s : Service) (runId : String) : ExecutionEvent → Prop
  | .authorize granted _ => granted = true
  | .callTool _ _ _ | .finish _ _ => False
  | .toolReturned result _ => result.isOk = true
  | event => s.TaskSettles runId event

instance (s : Service) (runId : String) : DecidablePred (s.TaskObeys runId)
  | .authorize granted _ => inferInstanceAs (Decidable (granted = true))
  | .callTool _ _ _ | .finish _ _ => isFalse id
  | .toolReturned result _ => inferInstanceAs (Decidable (result.isOk = true))
  | .start reply => inferInstanceAs (Decidable (s.TaskSettles runId (.start reply)))
  | .enqueue reply => inferInstanceAs (Decidable (s.TaskSettles runId (.enqueue reply)))
  | .markRunning reply => inferInstanceAs (Decidable (s.TaskSettles runId (.markRunning reply)))
  | .timeOut => isFalse id
  | .observe _ | .cancel _ | .acquire | .poll | .pend | .plan _ | .conclude _ | .propose _ _
  | .publish _ | .drop => isTrue trivial

/-- The task of the run still looks at its cancellation channel. -/
def isListening (s : Service) (runId : String) : Bool :=
  s.executions[runId]?.any (·.stage.listens)

/-- The run is over and cancelled, with no plan and no confirmation left. -/
def IsEnded (s : Service) (runId : String) : Prop :=
  s.executions[runId]?.any (·.stage.isOver) = true ∧
    (∀ status ∈ s.agentRuns[runId]?, status.state = .cancelled) ∧
      (∀ entry ∈ s.pendingAgentActions.toList, entry.2.runId ≠ runId) ∧
        ∀ entry ∈ s.confirmations.toList, entry.2.pending.runId ≠ runId

instance (s : Service) (runId : String) : Decidable (s.IsEnded runId) :=
  inferInstanceAs (Decidable (_ ∧ _ ∧ _ ∧ _))

/-- A cancellation of the run is only reported while the task still looks at its channel, or
nothing of the run is left, and the task then takes it. A run that awaits confirmation is
not cancelled while a confirmation of it is in flight. The service does not restart. -/
def ObeysCancel (runId : String) (s : Service) : ServiceEvent → Prop
  | .execution r event => r = runId → s.cancelRequested runId = true → s.TaskObeys runId event
  | .cancelAgentRun _ r => r = runId → s.Sends runId → s.isListening runId = true ∨ s.IsEnded runId
  | .cancellation call (.settle reply) => ∀ cancellation ∈ s.cancellations[call]?,
    cancellation.runId = runId → s.Savable runId reply.save →
      ∀ entry ∈ s.confirmations.toList, entry.2.pending.runId ≠ runId
  | .restart _ _ => False
  | _ => True

instance (runId : String) (s : Service) : DecidablePred (s.ObeysCancel runId)
  | .execution r event => inferInstanceAs (Decidable
    (r = runId → s.cancelRequested runId = true → s.TaskObeys runId event))
  | .cancelAgentRun _ r => inferInstanceAs (Decidable (r = runId → s.Sends runId → _ ∨ _))
  | .cancellation call (.settle reply) => inferInstanceAs (Decidable
    (∀ cancellation ∈ s.cancellations[call]?, cancellation.runId = runId →
      s.Savable runId reply.save → ∀ entry ∈ s.confirmations.toList, _))
  | .restart _ _ => isFalse id
  | .cancellation _ .observe | .cancellation _ .purge
  | .tick _ _ | .setAgentDefinitions _ | .setDisabledAgents _ | .expireLeases
  | .revokeCapabilityLease _ | .startAgent _ _ _ _ _ | .fireAgentTrigger _ _ _ _ _ _ _
  | .retryAgentRun _ _ _ _ _ | .confirmAgentAction _ _ _ | .confirmation _ _ => isTrue trivial

theorem isListening_iff : s.isListening r ↔
    ∃ stage, (s.view r).stage = some stage ∧ stage.listens := by
  cases he : s.executions[r]? <;> simp [isListening, view, he]

theorem view_ended (h : s.IsEnded r) : (s.view r).Ended := by
  obtain ⟨ho, hs, hp, hc⟩ := h
  refine ⟨?_, fun st h => ?_, ?_, confirming_none hc⟩
  · cases he : s.executions[r]? with
    | none => simp [he] at ho
    | some exec =>
      obtain ⟨req, lid, ress, stage⟩ := exec
      cases stage <;> simp_all [view, ExecutionStage.isOver]
  · obtain ⟨stat, hg, rfl⟩ := map_eq_some_iff.mp h
    exact hs stat hg
  · ext planId
    simp only [view, Set.mem_ofPred_eq, Set.mem_empty_iff_false, iff_false]
    rintro ⟨plan, hpl, hr⟩
    exact hp _ (Std.ExtTreeMap.mem_toList_iff_getElem?_eq_some.mpr hpl) hr

/-- The steps of a task that obeys the cancellation it was told. -/
theorem task_obeying {exec : Execution} {ev : ExecutionEvent} (hs : s.WellFormed config)
    (he : s.executions[r]? = some exec) (hsp : ExecutionStep config s r exec ev t)
    (hok : s.cancelRequested r → s.TaskObeys r ev) :
    (executionLabel config s r exec ev).Obeying (s.view r) := by
  have hv := view_stage he
  have hso := hs.sound r
  have ha (hse : (s.view r).sender = some true) : s.TaskObeys r ev :=
    hok (cancelRequested_iff.mpr hse)
  -- A task settles its run at the stage it is at.
  have hst {stage : ExecutionStage} (h : exec.stage = stage)
      (hne : stage ≠ .permission) : RunLabel.settle.Obeying (s.view r) := by
    intro _ hp
    exact hne (some.inj (h ▸ hv.symm.trans hp))
  cases hsp with
  | start h =>
    simp only [executionLabel]
    split
    case h_1 => trivial
    case h_2 error hl =>
      intro hse
      rw [h] at hv
      obtain ⟨lid, hf⟩ := lookUp_ok (hs.ready r exec ⟨he, h⟩)
        (hso.executing _ _ hv rfl).leased (ha hse exec he)
      cases hf.symm.trans hl
  | @authorize granted reply h =>
    cases granted with
    | true => trivial
    | false => exact fun hse => by cases ha hse
  | observeCancelled h hc =>
    simp only [executionLabel, if_pos hc]
    exact hst h (by simp)
  | observe _ hc =>
    simp only [executionLabel, hc]
    trivial
  | enqueue h | markRunning h =>
    simp only [executionLabel]
    split
    case isTrue => trivial
    case isFalse hsa =>
      intro hse
      rw [h] at hv
      exact hsa (savable_of_executing (hso.executing _ _ hv rfl) (ha hse))
  | cancelQueued h | cancelRunning h => exact hst h (by simp)
  | callTool h =>
    simp only [executionLabel]
    split
    · exact ha
    · exact ha
  | @toolReturned tool args res reply h =>
    cases res with
    | error error => exact fun hse => by cases ha hse
    | ok res => trivial
  | finish h => exact ha
  | timeOut h => exact ha
  | concludeError h =>
    simp only [executionLabel, h]
    exact hst h (by simp)
  | conclude h =>
    simp only [executionLabel, h]
    trivial
  | propose h =>
    simp only [executionLabel]
    split
    · exact hst h (by simp)
    · trivial
  | acquire | poll | pend | plan | publish | drop => trivial

theorem label_obeying (hs : s.WellFormed config) (h : s.step config e = some t)
    (hok : s.ObeysCancel r e) : (label config s r e).Obeying (s.view r) := by
  have hsp := label_spec config s r e
  have ht (hl : label config s r e = .abandon ∨ label config s r e = .settle ∨
      label config s r e = .tool ∨ label config s r e = .finish) :
      (label config s r e).Obeying (s.view r) := by
    obtain ⟨ev, exec, rfl, he, hla⟩ := hsp.task hl
    obtain ⟨_, he', hst⟩ := bind_eq_some_iff.mp h
    cases he.symm.trans he'
    rw [← hla]
    exact task_obeying hs he (stepExecution_cases hst) (hok rfl)
  cases hla : label config s r e with
  | abandon | settle | tool | finish =>
    rw [hla] at ht
    exact ht (by simp)
  | send =>
    obtain ⟨call, rfl, hse⟩ := hsp.send hla
    exact (hok rfl hse).imp (isListening_iff).mp view_ended
  | settleCancel =>
    obtain ⟨call, can, reply, rfl, hc, hr, hsa⟩ := hsp.settleCancel hla
    exact confirming_none (hok can hc hr hsa)
  | restart =>
    obtain ⟨defs, disabled, rfl⟩ := hsp.restart hla
    exact hok.elim
  | _ => trivial

/-- The invariant of the runs that obey the cancellations of `r`. -/
def ObeyingCancel (config : ServiceConfig) (r : String) (s : Service) : Prop :=
  s.WellFormed config ∧ (s.view r).CancelFinal r

theorem step_obeyingCancel (h : s.step config e = some t) (hok : s.ObeysCancel r e)
    (hs : s.ObeyingCancel config r) : t.ObeyingCancel config r :=
  ⟨step_wellFormed hs.1 h, (view_step hs.1.issues h r).keeps_cancelFinal (hs.1.sound r)
    (label_obeying hs.1 h hok) hs.2⟩

/-- The task of the run has returned with the run cancelled, unless it was evicted since. -/
def IsCancelled (s : Service) (runId : String) : Prop :=
  s.hasReturned runId = true → ∀ status, s.agentRuns[runId]? = some status →
    status.state = .cancelled

/-- A run that is cancelled before its task starts. -/
def cancelledTask : List ServiceEvent :=
  [started, .cancelAgentRun 0 (sampleId 'a')] ++
    [.start written, .authorize true written, .observe written, .drop].map
      (.execution (sampleId 'a'))

/-- A cancellation that arrives while the user looks at the prompt of a confirmation. -/
def cancelledPrompt : List ServiceEvent :=
  proposingTask (sampleId 'a') (sampleId 'b') (sampleId 'c') ++
    [.confirmAgentAction 0 (sampleId 'c') true, .confirmation 0 .check,
      .cancelAgentRun 1 (sampleId 'a'), .cancellation 1 .observe, .cancellation 1 .purge,
      .cancellation 1 (.settle written), .confirmation 0 (.prompt (.ok ())),
      .confirmation 0 (.execute written), .confirmation 0 (.executed true),
      .confirmation 0 (.resolve written)]

end Service

end FocalDesk
