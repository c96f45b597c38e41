import FocalDesk.Agent.RunInvariant
import FocalDesk.Agent.Starting

/-!
A task that returns has settled its run, unless it took one of the exits that leave the
run as it is.
-/
namespace FocalDesk
open Library Option Relation

variable {ts : Bool} {runId r : String} {v v' : RunView} {l : RunLabel}
  {config : ServiceConfig} {s t : Service} {e : ServiceEvent}

/-- What holds of the service and of each of its runs, in every state it reaches. -/
structure Service.WellFormed (config : ServiceConfig) (s : Service) : Prop where
  issues : s.Issues
  sound : ∀ runId, (s.view runId).Sound config.toolExecutor
  ready : s.Ready config

namespace Service

theorem new_wellFormed (config : ServiceConfig) (defs : BTreeMap String AgentDefinition)
    (sto : Bool) (unixNow instant : ℕ) :
    (new defs sto unixNow instant).WellFormed config := by
  refine ⟨⟨⟨?_, ?_⟩, ?_, ?_⟩, fun runId => ?_, ?_⟩
  · intro runId stat h
    simp [new] at h
  · intro store h runId run hr
    cases sto <;> cases h
    simp at hr
  · intro runId h
    simp [new] at h
  · rintro runId req (h | ⟨store, h, stat, hs⟩)
    · simp [new] at h
    · cases sto <;> cases h
      simp at hs
  · have hv : (new defs sto unixNow instant).view runId =
        { issued := False, state := none, requested := False, leased := False, sender := none,
          stage := none, plans := ∅, confirming := fun _ => none, cancelling := fun _ => none,
          log := [] } := by
      simp [view, new, inFlight, funext_iff]
    rw [hv]
    refine ⟨?_, fun _ => ⟨⟨rfl, fun _ => rfl⟩, ?_⟩, ?_, ?_, ?_, ?_, ?_, ?_, ?_,
      fun h => absurd ⟨rfl, fun _ => rfl⟩ h, ?_⟩ <;> simp
  · intro runId exec h
    simp [Starts, new] at h

theorem step_wellFormed (hs : s.WellFormed config) (h : s.step config e = some t) :
    t.WellFormed config :=
  ⟨step_issues hs.issues h, fun r => (view_step hs.issues h r).sound (hs.sound r),
    step_ready hs.ready h⟩

end Service

/-- Outside of its task a run is recorded in a terminal state or awaits confirmation. -/
def RunView.Settled (v : RunView) : Prop :=
  (v.stage = some .returning ∨ v.stage = some .returned) →
    ∀ state, v.state = some state → state.isTerminal = true ∨ state = .awaitingConfirmation

namespace RunView.Settled

theorem of_stage {stg : ExecutionStage} (h : v.stage = some stg) (hre : stg ≠ .returning)
    (hr : stg ≠ .returned) : v.Settled := by
  rintro (h' | h')
  · exact absurd (some.inj (h.symm.trans h')) hre
  · exact absurd (some.inj (h.symm.trans h')) hr

theorem of_record (state : AgentRunState) (hv : v'.state = v.state.map fun _ => state)
    (h : state.isTerminal ∨ state = .awaitingConfirmation) : v'.Settled := by
  intro _ x hx
  obtain ⟨_, -, rfl⟩ := map_eq_some_iff.mp (hv.symm.trans hx)
  exact h

end RunView.Settled

theorem finalState_settled (resp : AgentResponse) :
    (Service.finalState resp).isTerminal ∨ Service.finalState resp = .awaitingConfirmation := by
  unfold Service.finalState
  split
  · exact .inr rfl
  · exact .inl rfl

/-- Every step but the exits that abandon a run leaves settled runs settled. -/
theorem RunStep.settled (h : RunStep ts runId v l v') (hv : v.Sound ts) (hl : l ≠ .abandon)
    (hs : v.Settled) : v'.Settled := by
  have hf (h : ¬ v.issued) : v.stage = none := by simpa using mt hv.issued h
  cases h with
  | other | swept => exact hs
  | evicted => exact fun _ _ h => nomatch h
  | restarted => exact fun h => by simp at h
  | unregistered => exact hs
  | registered h => exact fun hst => by simp [hf h] at hst
  | spawned => exact .of_stage rfl nofun nofun
  | notStarted | notEnqueued | notAdmitted | timedOut => exact absurd rfl hl
  | denied | concludedError | tableFull => exact .of_record .failed rfl (.inl rfl)
  | observedCancel | cancelledQueued | cancelledRunning =>
    exact .of_record .cancelled rfl (.inl rfl)
  | published => exact .of_record _ rfl (finalState_settled _)
  | dropped h => exact fun _ => hs (.inl h)
  | planned => exact hs
  | started | granted | passed | enqueued | acquired | admitted | polled | pending | calledTool
  | toolReturned | finished | concluded | proposed => exact .of_stage rfl nofun nofun
  | taken | moved | ended | calledConfirmed => exact hs
  | @resolved call state err hc =>
    rcases hv.resolving call state err hc with rfl | rfl
    · exact .of_record .completed rfl (.inl rfl)
    · exact .of_record .failed rfl (.inl rfl)
  | sent | unreceived | absent | lookedAwaiting | looked | purged => exact hs
  | cancelSettled | cancelFailed => exact .of_record .cancelled rfl (.inl rfl)

namespace Service

/-- The task that executes a run has returned. -/
def hasReturned (s : Service) (runId : String) : Bool :=
  match s.executions[runId]? with
  | some { stage := .returned, .. } => true
  | _ => false

theorem hasReturned_iff : s.hasReturned r ↔ (s.view r).stage = some .returned := by
  unfold hasReturned
  cases he : s.executions[r]? with
  | none => simp [view, he]
  | some exec =>
    obtain ⟨req, lid, ress, stg⟩ := exec
    cases stg <;> simp [view, he]

/-- The task of a run does not take the exits that leave the run as it is: its agent is
still defined when it starts, the saves on its way to the agent go through, and the
request does not time out. -/
def TaskSettles (s : Service) (runId : String) : ExecutionEvent → Prop
  | .start _ => ∀ execution ∈ s.executions[runId]?, execution.request.agent ∈ s.agentDefinitions
  | .enqueue reply | .markRunning reply => s.agentRunStore.isNone = true ∨ reply.save = true
  | .timeOut => False
  | _ => True

instance (s : Service) (runId : String) : DecidablePred (s.TaskSettles runId)
  | .start _ => inferInstanceAs (Decidable (∀ execution ∈ s.executions[runId]?,
    execution.request.agent ∈ s.agentDefinitions))
  | .enqueue _ | .markRunning _ => inferInstanceAs (Decidable (_ ∨ _))
  | .timeOut => isFalse id
  | .authorize _ _ | .observe _ | .cancel _ | .acquire | .poll | .pend | .plan _
  | .callTool _ _ _ | .toolReturned _ _ | .finish _ _ | .conclude _ | .propose _ _
  | .publish _ | .drop => isTrue trivial

def Settles (runId : String) (s : Service) : ServiceEvent → Prop
  | .execution r event => r = runId → s.TaskSettles r event
  | _ => True

instance (runId : String) (s : Service) : DecidablePred (s.Settles runId)
  | .execution r event => inferInstanceAs (Decidable (r = runId → s.TaskSettles r event))
  | .tick _ _ | .setAgentDefinitions _ | .setDisabledAgents _ | .expireLeases
  | .revokeCapabilityLease _ | .startAgent _ _ _ _ _ | .fireAgentTrigger _ _ _ _ _ _ _
  | .retryAgentRun _ _ _ _ _ | .confirmAgentAction _ _ _ | .confirmation _ _
  | .cancelAgentRun _ _ | .cancellation _ _ | .restart _ _ => isTrue trivial

theorem savable_of_executing {state : AgentRunState} {saved : Bool}
    (h : (s.view r).Executing state) (hs : s.agentRunStore.isNone ∨ saved) :
    s.Savable r saved := by
  obtain ⟨stat, hst, -⟩ := map_eq_some_iff.mp h.state
  exact ⟨mem_of_getElem? hst, hs.imp isNone_iff_eq_none.mp fun hsa => ⟨h.requested, hsa⟩⟩

theorem lookUp_ok {req : AgentRequest} (had : Admitted config req) (hl : r ∈ s.runCapabilityLeases)
    (ha : req.agent ∈ s.agentDefinitions) :
    ∃ lid, s.lookUp config r req = .ok lid := by
  obtain ⟨lid, hg⟩ := exists_getElem?_of_mem hl
  refine ⟨lid, ?_⟩
  simp [lookUp, bailIf, had.1, had.2, hg, ha, Functor.map, Except.map]

theorem label_ne_abandon (hs : s.WellFormed config) (h : s.step config e = some t)
    (hok : s.Settles r e) : label config s r e ≠ .abandon := by
  intro hl
  obtain ⟨ev, exec, rfl, he, ht⟩ := (label_spec config s r e).task (.inl hl)
  obtain ⟨_, he', hse⟩ := bind_eq_some_iff.mp h
  cases he.symm.trans he'
  have hv := view_stage he
  have hok : s.TaskSettles r ev := hok rfl
  rcases executionLabel_eq_abandon (ht.trans hl) with ⟨reply, err, rfl, hlo⟩ | ⟨reply, h, hsa⟩ | rfl
  · cases stepExecution_cases hse with
    | start hst =>
      rw [hst] at hv
      obtain ⟨lid, hf⟩ := lookUp_ok (hs.ready r exec ⟨he, hst⟩)
        ((hs.sound r).executing _ _ hv rfl).leased (hok exec he)
      cases hf.symm.trans hlo
  · refine hsa ?_
    rcases h with rfl | rfl
    · cases stepExecution_cases hse with
      | enqueue hst =>
        rw [hst] at hv
        exact savable_of_executing ((hs.sound r).executing _ _ hv rfl) hok
    · cases stepExecution_cases hse with
      | markRunning hst =>
        rw [hst] at hv
        exact savable_of_executing ((hs.sound r).executing _ _ hv rfl) hok
  · exact hok

/-- The invariant of the runs that settle `r`. -/
def Settling (config : ServiceConfig) (r : String) (s : Service) : Prop :=
  s.WellFormed config ∧ (s.view r).Settled

theorem step_settling (h : s.step config e = some t) (hok : s.Settles r e)
    (hs : s.Settling config r) : t.Settling config r :=
  ⟨step_wellFormed hs.1 h, (view_step hs.1.issues h r).settled (hs.1.sound r)
    (label_ne_abandon hs.1 h hok) hs.2⟩

/-- A run whose task has returned is recorded in a terminal state or awaits confirmation. -/
theorem returned_settled {definitions : BTreeMap String AgentDefinition} {stored : Bool}
    {unixNow instant : ℕ} {es : List ServiceEvent}
    (hrun : run (step config) (new definitions stored unixNow instant) es = some t)
    (hmeets : Meets (step config) (Settles r) (new definitions stored unixNow instant) es)
    (hreturned : t.hasReturned r = true) {status : AgentRunStatus}
    (hstatus : t.agentRuns[r]? = some status) :
    status.state.isTerminal = true ∨ status.state = .awaitingConfirmation := by
  have hi : t.Settling config r := run_invariant_of_meets step_settling hmeets hrun
    ⟨new_wellFormed .., fun h => by simp [view, new] at h⟩
  exact hi.2 (.inr ((hasReturned_iff).mp hreturned)) _ (by simp [view, hstatus])

/-! A service with the built-in agents and one provider. -/

def sampleConfig : ServiceConfig :=
  { defaultProvider := "openai",
    providers := (∅ : BTreeMap String (Option String)).insert "openai" none,
    toolExecutor := true, requestTimeout := 120,
    urls := ⟨fun _ => .error "relative URL without a base", _, rfl⟩ }

def sampleDefinitions : BTreeMap String AgentDefinition :=
  builtInAgents.foldl (fun definitions definition => definitions.insert definition.id definition) ∅

def sampleService : Service := new sampleDefinitions false 1000 0

def sampleRequest : AgentRequest := ⟨"Summarise my windows.", none, none, none⟩

def sampleId (digit : Char) : String := String.ofList (List.replicate 48 digit)

def accepted : RegisterReply := ⟨.ok (0, 0), true, true, fun _ => true, true⟩

def written : StoreReply := ⟨true, true, true⟩

/-- A task up to the point where its agent is polled. -/
def polledTask (runId : String) : List ServiceEvent :=
  [.start written, .authorize true written, .observe written, .enqueue written, .acquire,
    .markRunning written, .poll].map (.execution runId)

def started : ServiceEvent :=
  .startAgent sampleRequest none (sampleId 'a') (sampleId 'b') accepted

/-- A task whose request times out while its agent is polled. -/
def timedOutTask (runId : String) : List ServiceEvent :=
  polledTask runId ++ [.timeOut, .drop].map (.execution runId)

/-- A task whose agent fails. -/
def failedTask (runId : String) : List ServiceEvent :=
  polledTask runId ++ [.finish (.error "provider failed") written, .conclude written, .drop].map
    (.execution runId)

/-- A run whose last state passes a check. -/
theorem exists_last (es : List ServiceEvent) (p : Service → Prop) [DecidablePred p]
    (h : (run (step sampleConfig) sampleService es).any (fun t => p t)) :
    ∃ t, run (step sampleConfig) sampleService es = some t ∧ p t := by
  obtain ⟨t, hr, ht⟩ := exists_run_of_any h
  exact ⟨t, hr, of_decide_eq_true ht⟩

/-- The same of a run whose steps conform. -/
theorem exists_conforming (ok : Service → ServiceEvent → Prop) [∀ s e, Decidable (ok s e)]
    (es : List ServiceEvent) (p : Service → Prop) [DecidablePred p]
    (h : (checkedRun (step sampleConfig) ok sampleService es).any (fun t => p t)) :
    Meets (step sampleConfig) ok sampleService es ∧
      ∃ t, run (step sampleConfig) sampleService es = some t ∧ p t := by
  obtain ⟨hm, t, hr, ht⟩ := exists_run_of_checked h
  exact ⟨hm, t, hr, of_decide_eq_true ht⟩

theorem returned_settled_failed : ∃ t,
    run (step sampleConfig) sampleService (started :: failedTask (sampleId 'a')) = some t ∧
    ∃ status, t.agentRuns[sampleId 'a']? = some status ∧
      (status.state.isTerminal = true ∨ status.state = .awaitingConfirmation) := by
  obtain ⟨hm, t, hru, hr, hre⟩ := exists_conforming (Settles (sampleId 'a'))
    (started :: failedTask (sampleId 'a'))
    (fun t => t.hasReturned (sampleId 'a') = true ∧ sampleId 'a' ∈ t.agentRuns) (by decide +kernel)
  obtain ⟨status, hs⟩ := exists_getElem?_of_mem hre
  exact ⟨t, hru, status, hs, returned_settled hru hm hr hs⟩

/-- A request that times out returns with its run still recorded as running. -/
theorem timed_out_run_keeps_running : ∃ t,
    run (step sampleConfig) sampleService (started :: timedOutTask (sampleId 'a')) = some t ∧
      t.hasReturned (sampleId 'a') = true ∧
        t.agentRuns[sampleId 'a']?.map (·.state) = some .running :=
  exists_last _ _ (by decide +kernel)

/-- What holds of every run holds of each run of a service that was reached. -/
theorem runs_sound {definitions : BTreeMap String AgentDefinition} {stored : Bool}
    {unixNow instant : ℕ} {es : List ServiceEvent}
    (hrun : run (step config) (new definitions stored unixNow instant) es = some t) (r : String) :
    (t.view r).Sound config.toolExecutor :=
  (run_invariant (fun h hs => step_wellFormed hs h) hrun (new_wellFormed ..)).sound r

def Failed (t : Service) : Prop :=
  run (step sampleConfig) sampleService (started :: failedTask (sampleId 'a')) = some t

theorem exists_failed : ∃ t, Failed t :=
  (exists_last _ (fun _ => True) (by decide +kernel)).imp fun _ => And.left

theorem runs_sound_failed : ∃ t, Failed t ∧ (t.view (sampleId 'a')).Sound true :=
  (exists_failed).imp fun _ h => ⟨h, runs_sound h _⟩

/-- Whatever a service goes through is a run of the protocol of each of its runs. -/
theorem runs_refine_protocol {es : List ServiceEvent} (hs : s.Issues)
    (hrun : run (step config) s es = some t) (r : String) :
    ReflTransGen (fun v v' => ∃ label, RunStep config.toolExecutor r v label v')
      (s.view r) (t.view r) := by
  induction es generalizing s with
  | nil =>
    cases hrun
    exact .refl
  | cons e es ih =>
    obtain ⟨u, hu, hrun⟩ := run_cons_eq_some.mp hrun
    exact .head ⟨_, view_step hs hu r⟩ (ih (step_issues hs hu) hrun)

theorem runs_refine_protocol_failed : ∃ t, Failed t ∧
    ReflTransGen (fun v v' => ∃ label, RunStep true (sampleId 'a') v label v')
      (sampleService.view (sampleId 'a')) (t.view (sampleId 'a')) :=
  (exists_failed).imp fun _ h =>
    ⟨h, runs_refine_protocol (new_wellFormed sampleConfig ..).issues h _⟩

end Service

end FocalDesk
