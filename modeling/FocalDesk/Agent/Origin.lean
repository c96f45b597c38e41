import FocalDesk.Agent.Starting

/-! What the steps of the service leave alone: the clock, the definitions, and where a run
came from. -/
namespace FocalDesk
open Library Option Std.ExtTreeMap

variable {cfg : ServiceConfig} {s t u : Service} {runId lid : String}
  {req : AgentRequest} {execution : Execution} {stat run : AgentRunStatus}
  {upd : AgentRunStatus → AgentRunStatus} {kind : AgentRunEventKind} {saved : Bool}
  {reply : StoreReply} {e : ServiceEvent}

/-- Two records of one registration. -/
structure SameOrigin (run run' : AgentRunStatus) : Prop where
  agentId : run'.agentId = run.agentId
  trigger : run'.trigger = run.trigger
  createdAtUnix : run'.createdAtUnix = run.createdAtUnix

theorem SameOrigin.refl : SameOrigin run run := ⟨rfl, rfl, rfl⟩

theorem SameOrigin.trans {run' run'' : AgentRunStatus} (h : SameOrigin run run')
    (h' : SameOrigin run' run'') : SameOrigin run run'' :=
  ⟨h'.agentId.trans h.agentId, h'.trigger.trans h.trigger, h'.createdAtUnix.trans h.createdAtUnix⟩

namespace Service

/-- The clock, the definitions and the presence of a store stay as they are. -/
structure Steady (s t : Service) : Prop where
  clock : t.unixNow = s.unixNow
  definitions : t.agentDefinitions = s.agentDefinitions
  stored : t.agentRunStore.isSome = s.agentRunStore.isSome

theorem Steady.refl : Steady s s := ⟨rfl, rfl, rfl⟩

theorem Steady.trans (h : Steady s t) (h' : Steady t u) : Steady s u :=
  ⟨h'.clock.trans h.clock, h'.definitions.trans h.definitions, h'.stored.trans h.stored⟩

theorem WritesRuns.steady (h : WritesRuns s t) : Steady s t :=
  ⟨by rw [h.eq], by rw [h.eq], h.store⟩

/-- Every run that is recorded stays recorded, with its origin. -/
def KeepsRuns (s t : Service) : Prop :=
  ∀ (runId : String) run, s.agentRuns[runId]? = some run →
    ∃ run', t.agentRuns[runId]? = some run' ∧ SameOrigin run run'

theorem KeepsRuns.refl : KeepsRuns s s := fun _ run h => ⟨run, h, .refl⟩

theorem KeepsRuns.trans (h : KeepsRuns s t) (h' : KeepsRuns t u) : KeepsRuns s u := by
  intro runId run hr
  obtain ⟨run', hr', ho⟩ := h runId run hr
  obtain ⟨run'', hr'', ho'⟩ := h' runId run' hr'
  exact ⟨run'', hr'', ho.trans ho'⟩

theorem keepsRuns_of_eq (h : t.agentRuns = s.agentRuns) : KeepsRuns s t :=
  fun _ run hr => ⟨run, by rw [h, hr], .refl⟩

/-- The step changes neither the setting nor where a run came from. -/
structure Carries (s t : Service) : Prop where
  steady : Steady s t
  runs : KeepsRuns s t

theorem Carries.refl : Carries s s := ⟨.refl, .refl⟩

theorem Carries.trans (h : Carries s t) (h' : Carries t u) : Carries s u :=
  ⟨h.steady.trans h'.steady, h.runs.trans h'.runs⟩

/-! Writes of runs. -/

theorem insertRun_keepsRuns (hr : s.agentRuns[runId]? = some run) (ho : SameOrigin run stat) :
    KeepsRuns s { s with agentRuns := s.agentRuns.insert runId stat } := by
  intro r run' hr'
  simp only [getElem?_insert]
  split
  case isTrue heq =>
    obtain rfl := Std.LawfulEqCmp.eq_of_compare heq
    obtain rfl : run = run' := some.inj (hr.symm.trans hr')
    exact ⟨stat, rfl, ho⟩
  case isFalse => exact ⟨run', hr', .refl⟩

theorem save_carries : Carries s (s.save saved stat req).1 :=
  ⟨save_writesRuns.steady, keepsRuns_of_eq save_agentRuns⟩

theorem persistAgentRun_keepsRuns : KeepsRuns s (s.persistAgentRun saved stat).1 := by
  unfold persistAgentRun
  split
  · exact .refl
  · exact .refl
  · exact (save_carries).runs

theorem putRun_carries (hr : s.agentRuns[runId]? = some run) (ho : SameOrigin run stat) :
    Carries s (s.putRun runId saved stat) := by
  refine ⟨putRun_writesRuns.steady, ?_⟩
  unfold putRun
  dsimp only
  split
  · exact insertRun_keepsRuns hr ho
  · exact (insertRun_keepsRuns hr ho).trans (save_carries).runs

theorem updateAgentRun_carries (ho : ∀ run, SameOrigin run (upd run)) :
    Carries s (s.updateAgentRun runId saved upd).1 := by
  refine ⟨updateAgentRun_writesRuns.steady, ?_⟩
  unfold updateAgentRun
  split
  · exact .refl
  case h_2 run hr =>
    exact (insertRun_keepsRuns hr (ho run)).trans persistAgentRun_keepsRuns

theorem recordAgentEvent_carries : Carries s (s.recordAgentEvent runId saved kind) := by
  unfold recordAgentEvent
  split
  · exact .refl
  case h_2 run hr => exact putRun_carries hr ⟨rfl, rfl, rfl⟩

theorem checkpointStep_carries {step : AgentStepResult} :
    Carries s (s.checkpointStep runId saved step) := by
  unfold checkpointStep
  split
  · exact .refl
  case h_2 run hr => exact putRun_carries hr ⟨rfl, rfl, rfl⟩

theorem transition_carries (ho : ∀ run, SameOrigin run (upd run)) :
    Carries s (s.transition runId reply upd kind).1 := by
  have hu : Carries s (s.updateAgentRun runId reply.save upd).1 := updateAgentRun_carries ho
  unfold transition
  split
  case h_1 heq =>
    rw [heq] at hu
    exact hu
  case h_2 heq =>
    rw [heq] at hu
    exact hu.trans recordAgentEvent_carries

/-! Tasks. -/

theorem setStage_carries {stg : ExecutionStage} : Carries s (s.setStage runId stg) :=
  ⟨⟨rfl, rfl, rfl⟩, keepsRuns_of_eq rfl⟩

theorem setExecution_carries : Carries s (s.setExecution runId execution) :=
  ⟨⟨rfl, rfl, rfl⟩, keepsRuns_of_eq rfl⟩

theorem observe_carries {observation : Observation} : Carries s (s.observe observation) :=
  ⟨⟨rfl, rfl, rfl⟩, keepsRuns_of_eq rfl⟩

theorem leave_carries (ho : ∀ run, SameOrigin run (upd run)) :
    Carries s (s.leave runId reply upd kind) :=
  (transition_carries ho).trans setStage_carries

theorem leaveCancelled_carries : Carries s (s.leaveCancelled runId reply) :=
  leave_carries fun _ => ⟨rfl, rfl, rfl⟩

theorem leaveFailed_carries {err : String} : Carries s (s.leaveFailed runId reply err) :=
  leave_carries fun _ => ⟨rfl, rfl, rfl⟩

theorem advance_carries {kind : Option AgentRunEventKind} {stg : ExecutionStage}
    (ho : ∀ run, SameOrigin run (upd run)) :
    Carries s (s.advance runId reply upd kind stg) := by
  have hu : Carries s (s.updateAgentRun runId reply.save upd).1 := updateAgentRun_carries ho
  unfold advance
  split
  case h_1 heq =>
    rw [heq] at hu
    exact hu.trans setStage_carries
  case h_2 heq =>
    rw [heq] at hu
    split
    · exact (hu.trans recordAgentEvent_carries).trans setStage_carries
    · exact hu.trans setStage_carries

theorem propose_carries {resp : AgentResponse} {act : AgentProposedAction}
    {pl : String} : Carries s (s.propose runId execution resp act pl reply) := by
  have hs : Carries s s.sweepPlans := ⟨⟨rfl, rfl, rfl⟩, keepsRuns_of_eq rfl⟩
  have hi {plan : PendingAgentAction} : Carries s.sweepPlans (s.sweepPlans.insertPlan pl
      plan) := ⟨⟨rfl, rfl, rfl⟩, keepsRuns_of_eq rfl⟩
  unfold propose
  dsimp only
  split
  · exact hs.trans leaveFailed_carries
  · exact (hs.trans hi).trans setStage_carries

theorem stepExecution_carries {ev : ExecutionEvent}
    (h : s.stepExecution cfg runId execution ev = some t) : Carries s t := by
  cases stepExecution_cases h with
  | start =>
    unfold start
    split
    · exact setStage_carries
    · exact (setExecution_carries).trans recordAgentEvent_carries
  | @authorize gr =>
    cases gr with
    | true => exact setStage_carries
    | false => exact leaveFailed_carries
  | observeCancelled => exact leaveCancelled_carries
  | observe => exact setStage_carries
  | enqueue => exact advance_carries fun _ => ⟨rfl, rfl, rfl⟩
  | cancelQueued => exact leaveCancelled_carries
  | acquire => exact setStage_carries
  | markRunning => exact advance_carries fun _ => ⟨rfl, rfl, rfl⟩
  | poll => exact setStage_carries
  | cancelRunning => exact leaveCancelled_carries
  | pend => exact setStage_carries
  | timeOut => exact setStage_carries
  | plan => exact recordAgentEvent_carries
  | callTool =>
    unfold callTool
    dsimp only
    split
    · exact (recordAgentEvent_carries).trans setStage_carries
    · exact ((recordAgentEvent_carries).trans observe_carries).trans setStage_carries
  | @toolReturned tool args res =>
    cases res with
    | error error => exact setStage_carries
    | ok res =>
      exact ((checkpointStep_carries).trans recordAgentEvent_carries).trans setExecution_carries
  | @finish res =>
    cases res with
    | error error => exact setStage_carries
    | ok resp =>
      simp only [finish]
      split
      · exact (recordAgentEvent_carries).trans setStage_carries
      · exact setStage_carries
  | concludeError => exact leaveFailed_carries
  | conclude => exact setStage_carries
  | propose => exact propose_carries
  | publish => exact leave_carries fun _ => ⟨rfl, rfl, rfl⟩
  | drop => exact ⟨⟨rfl, rfl, rfl⟩, keepsRuns_of_eq rfl⟩

theorem stepConfirmation_carries {conf : Confirmation} {ev : ConfirmationEvent}
    {call : ℕ} (h : s.stepConfirmation cfg call conf ev = some t) :
    Carries s t := by
  have hs {st : AgentRunState} {err : Option String} {reply : StoreReply} :
      Carries s (s.transition conf.pending.runId reply (·.settle st s.unixNow err)
        (resolvedEvent err)).1 := transition_carries fun _ => ⟨rfl, rfl, rfl⟩
  cases stepConfirmation_cases h with
  | resolve => exact hs.trans ⟨⟨rfl, rfl, rfl⟩, keepsRuns_of_eq rfl⟩
  | _ => exact ⟨⟨rfl, rfl, rfl⟩, keepsRuns_of_eq rfl⟩

theorem stepCancellation_carries {can : Cancellation} {ev : CancellationEvent}
    {call : ℕ} (h : s.stepCancellation call can ev = some t) : Carries s t := by
  have hs {reply : StoreReply} : Carries s (s.transition can.runId reply
      (·.settle .cancelled s.unixNow none) .cancelled).1 :=
    transition_carries fun _ => ⟨rfl, rfl, rfl⟩
  cases stepCancellation_cases h with
  | settled => exact hs.trans ⟨⟨rfl, rfl, rfl⟩, keepsRuns_of_eq rfl⟩
  | failed => exact hs.trans ⟨⟨rfl, rfl, rfl⟩, keepsRuns_of_eq rfl⟩
  | _ => exact ⟨⟨rfl, rfl, rfl⟩, keepsRuns_of_eq rfl⟩

/-! Registration, up to what it evicts. -/

theorem forgetRuns_carries (del : String → Bool) (evicted : List String) (s : Service) :
    Carries s (forgetRuns del evicted s).1 := by
  induction evicted generalizing s with
  | nil => exact .refl
  | cons runId evicted ih =>
    have hr (t : Service) (h : Steady s t) (hru : t.agentRuns = s.agentRuns) :
        Carries s (forgetRuns del evicted t).1 :=
      Carries.trans ⟨h, keepsRuns_of_eq hru⟩ (ih t)
    unfold forgetRuns
    dsimp only
    split
    · exact hr _ ⟨rfl, rfl, rfl⟩ rfl
    case h_2 store hs =>
      split
      · exact hr _ ⟨rfl, rfl, by simp [hs]⟩ rfl
      · exact ⟨⟨rfl, rfl, rfl⟩, keepsRuns_of_eq rfl⟩

/-- The runs that the next registration evicts. -/
def evictedRuns (s : Service) : List String := (evictRuns s.agentRuns.size s.agentRuns []).2.1

/-- Every run that is not gone stays recorded, with its origin. -/
def KeepsOthers (gone : String → Prop) (s t : Service) : Prop :=
  ∀ (runId : String) run, s.agentRuns[runId]? = some run → ¬ gone runId →
    ∃ run', t.agentRuns[runId]? = some run' ∧ SameOrigin run run'

theorem KeepsRuns.others {gone : String → Prop} (h : KeepsRuns s t) : KeepsOthers gone s t :=
  fun runId run hr _ => h runId run hr

theorem KeepsOthers.trans {gone : String → Prop} (h : KeepsOthers gone s t) (h' : KeepsRuns t u) :
    KeepsOthers gone s u := by
  intro runId run hr hg
  obtain ⟨run', hr', ho⟩ := h runId run hr hg
  obtain ⟨run'', hr'', ho'⟩ := h' runId run' hr'
  exact ⟨run'', hr'', ho.trans ho'⟩

/-- What a registration of `newRunId` changes. -/
structure Admits (newRunId : String) (s t : Service) : Prop where
  steady : Steady s t
  runs : KeepsOthers (fun id => id ∈ s.evictedRuns ∨ id = newRunId) s t

theorem Carries.admits (h : Carries s t) : Admits runId s t := ⟨h.steady, h.runs.others⟩

theorem Admits.trans (h : Admits runId s t) (h' : Carries t u) : Admits runId s u :=
  ⟨h.steady.trans h'.steady, h.runs.trans h'.runs⟩

theorem evict_admits : Admits runId s
    { s with agentRuns := (evictRuns s.agentRuns.size s.agentRuns []).1 } := by
  refine ⟨⟨rfl, rfl, rfl⟩, fun id run hr hg => ?_⟩
  rcases evictRuns_spec s.agentRuns.size s.agentRuns [] id with ⟨hs, -⟩ | ⟨-, hin, -⟩
  · exact ⟨run, by rw [hs, hr], .refl⟩
  · exact absurd (.inl hin) hg

theorem insertAgentRun_admits (s : Service) (stat : AgentRunStatus) (req : AgentRequest)
    (reply : RegisterReply) : Admits stat.runId s (s.insertAgentRun stat req reply).1 ∧
      ((s.insertAgentRun stat req reply).2 = .ok () →
        (s.insertAgentRun stat req reply).1.agentRuns[stat.runId]? = some stat) := by
  have he : Admits stat.runId s
      { s with agentRuns := (evictRuns s.agentRuns.size s.agentRuns []).1 } := evict_admits
  have hf := he.trans
    (forgetRuns_carries reply.delete (evictRuns s.agentRuns.size s.agentRuns []).2.1 _)
  unfold insertAgentRun
  dsimp only
  split
  · exact ⟨he, nofun⟩
  · split
    case h_1 heq =>
      rw [heq] at hf
      exact ⟨hf, nofun⟩
    case h_2 u heq =>
      rw [heq] at hf
      have hsa : Carries u (u.save reply.save stat req).1 := save_carries
      split
      case h_1 hs =>
        rw [hs] at hsa
        exact ⟨hf.trans hsa, nofun⟩
      case h_2 v hs =>
        rw [hs] at hsa
        have hk := hf.trans hsa
        refine ⟨⟨⟨hk.steady.clock, hk.steady.definitions, hk.steady.stored⟩,
          fun id run hr hg => ?_⟩, fun _ => ?_⟩
        · obtain ⟨run', hr', ho⟩ := hk.runs id run hr hg
          refine ⟨run', ?_, ho⟩
          rw [getElem?_insert, if_neg fun heq =>
            hg (.inr (Std.LawfulEqCmp.eq_of_compare heq).symm)]
          exact hr'
        · exact getElem?_insert_self

theorem grantLease_carries (s : Service) (ls : CapabilityLease) (reply : RegisterReply) :
    Carries s (s.grantLease ls reply).1 ∧ (s.grantLease ls reply).1.agentRuns = s.agentRuns := by
  unfold grantLease
  dsimp only
  split
  · exact ⟨⟨⟨rfl, rfl, rfl⟩, keepsRuns_of_eq rfl⟩, rfl⟩
  · split
    · exact ⟨⟨⟨rfl, rfl, rfl⟩, keepsRuns_of_eq rfl⟩, rfl⟩
    · split <;> exact ⟨⟨⟨rfl, rfl, rfl⟩, keepsRuns_of_eq rfl⟩, rfl⟩

/-- A run as its registration records it. -/
structure RegisteredAs (s : Service) (request : AgentRequest) (trigger : Option AgentTriggerSource)
    (run : AgentRunStatus) : Prop where
  agentId : ∃ definition, s.agentDefinitions[request.agent]? = some definition ∧
    run.agentId = definition.id
  trigger : run.trigger = trigger
  createdAtUnix : run.createdAtUnix = s.unixNow

theorem registerAgentRun_admits (cfg : ServiceConfig) (s : Service) (req : AgentRequest)
    (runId lid : String) (trig : Option AgentTriggerSource) (ceiling : Option CapabilityPolicy)
    (reply : RegisterReply) :
    Admits runId s (s.registerAgentRun cfg req runId lid trig ceiling reply).1 ∧
      ((s.registerAgentRun cfg req runId lid trig ceiling reply).2 = .ok () →
        ∃ run, (s.registerAgentRun cfg req runId lid trig ceiling
            reply).1.agentRuns[runId]? = some run ∧ RegisteredAs s req trig run) := by
  unfold registerAgentRun
  split
  case h_1 => exact ⟨(Carries.refl).admits, nofun⟩
  case h_2 defn pol hc =>
    have hd : s.agentDefinitions[req.agent]? = some defn := by
      unfold checkRegistration at hc
      simp only [bind_eq_ok, okOr_eq_ok, pure_eq_ok, Prod.mk.injEq] at hc
      obtain ⟨_, _, definition', hd, _, _, _, _, rfl, _⟩ := hc
      exact hd
    obtain ⟨hg, hr⟩ := s.grantLease_carries (s.newLease cfg defn pol runId lid) reply
    split
    case h_1 heq =>
      rw [heq] at hg
      exact ⟨hg.admits, nofun⟩
    case h_2 u heq =>
      rw [heq] at hg hr
      obtain ⟨hi, hre⟩ := u.insertAgentRun_admits
        (u.newStatus cfg defn req runId trig) req reply
      -- The lease does not change which runs have to go.
      have ha {v : Service} (hv : Admits runId u v) : Admits runId s v := by
        refine ⟨hg.steady.trans hv.steady, fun id run hru hgo => ?_⟩
        refine hv.runs id run (by rw [hr, hru]) ?_
        rwa [evictedRuns, hr]
      split
      case h_1 hru =>
        rw [hru] at hi
        exact ⟨ha hi, nofun⟩
      case h_2 v hru =>
        rw [hru] at hi hre
        refine ⟨ha (hi.trans ⟨⟨rfl, rfl, rfl⟩, keepsRuns_of_eq rfl⟩), fun _ => ?_⟩
        refine ⟨u.newStatus cfg defn req runId trig, hre rfl, ?_⟩
        exact ⟨⟨defn, hd, rfl⟩, rfl, hg.steady.clock⟩

theorem spawn_carries {observations : List AgentStepResult} :
    Carries s (s.spawn runId req observations) := setExecution_carries

variable {reply : RegisterReply}

theorem startAgent_admits {ceiling : Option CapabilityPolicy} :
    Admits runId s (s.startAgent cfg req ceiling runId lid reply) := by
  obtain ⟨hr, -⟩ := registerAgentRun_admits cfg s req runId lid none ceiling reply
  unfold startAgent
  split
  case h_1 heq => rwa [heq] at hr
  case h_2 heq =>
    rw [heq] at hr
    exact hr.trans spawn_carries

variable {write : StoreReply}

theorem retryAgentRun_admits {nrid : String} :
    Admits nrid s (s.retryAgentRun cfg runId nrid lid reply write) := by
  unfold retryAgentRun
  split
  case h_2 => exact (Carries.refl).admits
  case h_1 run req _ _ =>
    split
    case isFalse => exact (Carries.refl).admits
    case isTrue =>
      obtain ⟨hr, -⟩ := registerAgentRun_admits cfg s req nrid lid none none reply
      split
      case h_1 heq => rwa [heq] at hr
      case h_2 u heq =>
        rw [heq] at hr
        have hc : Carries u (u.transition nrid write
            (fun new => { new with
              observations := run.observations
              completedToolSteps := run.observations.length })
            (.retried runId run.observations.length)).1 :=
          transition_carries fun _ => ⟨rfl, rfl, rfl⟩
        split
        case h_1 hu =>
          rw [hu] at hc
          exact hr.trans hc
        case h_2 hu =>
          rw [hu] at hc
          exact (hr.trans hc).trans spawn_carries

/-- What a firing does after its registration leaves every run with its origin. -/
theorem fireAgentTrigger_carries {src : AgentTriggerSource} {fire : Except String Unit} :
    Carries (s.registerAgentRun cfg req runId lid (some src) none reply).1
      (s.fireAgentTrigger cfg req src runId lid reply fire write) := by
  unfold fireAgentTrigger
  split
  case h_1 heq =>
    rw [heq]
    exact .refl
  case h_2 u heq =>
    rw [heq]
    split
    case h_1 err _ =>
      have hs : Carries u (u.transition runId write
          (·.settle .failed u.unixNow (some err)) (.failed err)).1 :=
        transition_carries fun _ => ⟨rfl, rfl, rfl⟩
      split
      case h_1 hse =>
        rw [hse] at hs
        exact hs
      case h_2 hse =>
        rw [hse] at hs
        exact hs.trans ⟨⟨rfl, rfl, rfl⟩, keepsRuns_of_eq rfl⟩
    case h_2 => exact (recordAgentEvent_carries).trans spawn_carries

theorem fireAgentTrigger_admits {src : AgentTriggerSource} {fire : Except String Unit} :
    Admits runId s (s.fireAgentTrigger cfg req src runId lid reply fire write) :=
  (registerAgentRun_admits cfg s req runId lid (some src) none reply).1.trans
    fireAgentTrigger_carries

/-! Steps of the service. -/

/-- A step that neither registers a run nor changes the setting. -/
def isOrdinary : ServiceEvent → Bool
  | .tick _ _ | .setAgentDefinitions _ | .restart _ _ => false
  | .startAgent _ _ _ _ _ | .fireAgentTrigger _ _ _ _ _ _ _ | .retryAgentRun _ _ _ _ _ => false
  | _ => true

theorem step_carries (h : s.step cfg e = some t) (he : isOrdinary e) : Carries s t := by
  have hsa (ht : t.unixNow = s.unixNow ∧ t.agentDefinitions = s.agentDefinitions ∧
      t.agentRunStore = s.agentRunStore) (hr : t.agentRuns = s.agentRuns) : Carries s t :=
    ⟨⟨ht.1, ht.2.1, by rw [ht.2.2]⟩, keepsRuns_of_eq hr⟩
  cases e with
  | setDisabledAgents | expireLeases | revokeCapabilityLease =>
    cases h
    exact hsa ⟨rfl, rfl, rfl⟩ rfl
  | execution =>
    obtain ⟨_, -, hs⟩ := bind_eq_some_iff.mp h
    exact stepExecution_carries hs
  | confirmAgentAction =>
    simp only [step] at h
    split at h
    · cases h
    · cases h
      unfold confirmAgentAction
      split
      · exact .refl
      · split
        · exact .refl
        · exact ⟨⟨rfl, rfl, rfl⟩, keepsRuns_of_eq rfl⟩
  | confirmation =>
    obtain ⟨_, -, hs⟩ := bind_eq_some_iff.mp h
    exact stepConfirmation_carries hs
  | cancelAgentRun =>
    simp only [step] at h
    split at h
    · cases h
    · cases h
      unfold cancelAgentRun
      split
      · exact .refl
      · split
        · split
          · exact ⟨⟨rfl, rfl, rfl⟩, keepsRuns_of_eq rfl⟩
          · exact ⟨⟨rfl, rfl, rfl⟩, keepsRuns_of_eq rfl⟩
        · exact ⟨⟨rfl, rfl, rfl⟩, keepsRuns_of_eq rfl⟩
  | cancellation =>
    obtain ⟨_, -, hs⟩ := bind_eq_some_iff.mp h
    exact stepCancellation_carries hs
  | _ => cases he

theorem Admits.of_issue (h : s.issue runId lid = some u) (ha : Admits runId u t) :
    Admits runId s t := by
  obtain ⟨-, rfl⟩ := issue_eq_some.mp h
  exact ⟨⟨ha.steady.clock, ha.steady.definitions, ha.steady.stored⟩, ha.runs⟩

/-- A step that registers a run takes a new id for it. -/
theorem step_admits (h : s.step cfg e = some t) (he : registers e = some runId) :
    runId ∉ s.issued ∧ Admits runId s t := by
  cases e with
  | startAgent =>
    cases he
    obtain ⟨u, hu, rfl⟩ := map_eq_some_iff.mp h
    exact ⟨(issue_eq_some.mp hu).1.1, Admits.of_issue hu startAgent_admits⟩
  | fireAgentTrigger =>
    cases he
    obtain ⟨u, hu, rfl⟩ := map_eq_some_iff.mp h
    exact ⟨(issue_eq_some.mp hu).1.1, Admits.of_issue hu fireAgentTrigger_admits⟩
  | retryAgentRun =>
    cases he
    obtain ⟨u, hu, rfl⟩ := map_eq_some_iff.mp h
    exact ⟨(issue_eq_some.mp hu).1.1, Admits.of_issue hu retryAgentRun_admits⟩
  | _ => cases he

/-- Only a tick moves the clock. -/
theorem step_clock (h : s.step cfg e = some t) (he : ∀ unixNow instant, e ≠ .tick unixNow instant) :
    t.unixNow = s.unixNow := by
  by_cases ho : isOrdinary e
  · exact (step_carries h ho).steady.clock
  · cases e with
    | tick unixNow instant => exact absurd rfl (he unixNow instant)
    | setAgentDefinitions =>
      cases h
      rfl
    | restart =>
      cases h
      unfold restart
      dsimp only
      split <;> rfl
    | startAgent | fireAgentTrigger | retryAgentRun =>
      obtain ⟨-, ha⟩ := step_admits h rfl
      exact ha.steady.clock
    | _ => exact absurd rfl ho

end Service

end FocalDesk
