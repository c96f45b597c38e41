import FocalDesk.Agent.Settlement

/-!
A run awaits confirmation exactly as long as it has a plan to confirm, while nothing is in
progress for it.
-/
namespace FocalDesk
open Library Option Function Std.ExtTreeMap

variable {ts : Bool} {runId r : String} {v v' : RunView} {l : RunLabel}
  {config : ServiceConfig} {s t : Service} {e : ServiceEvent}

namespace RunView

/-- Something is in flight that will settle the run. -/
def InFlight (v : RunView) : Prop :=
  (∃ call stage, v.confirming call = some stage) ∨
    ∃ call stage, v.cancelling call = some stage ∧ stage ≠ .absent

/-- How the plans of a run, its state and what is in flight for it hang together. -/
structure Planned (v : RunView) : Prop where
  settled : v.stage = some .returning ∨ v.stage = some .returned → v.plans.Nonempty →
    v.state = some .awaitingConfirmation
  awaiting : v.state = some .awaitingConfirmation → v.plans.Nonempty ∨ v.InFlight
  publishing : ∀ response, v.stage = some (.publishing response) → v.state = some .running ∧
    (response.confirmation.isSome = true → v.plans.Nonempty ∨ v.InFlight) ∧
      (response.confirmation = none → v.Unplanned)
  alone : v.plans.Nonempty → ∀ call, v.confirming call = none

end RunView

/-- The steps a run with a plan cannot take without losing its plan or its state. -/
def RunLabel.Keeping (v : RunView) : RunLabel → Prop
  | .sweep => ∃ call, v.cancelling call = some .awaiting
  | .resolve => ∀ response, v.stage ≠ some (.publishing response)
  | _ => True

namespace RunView.Planned

/-- A run without plans that does not await confirmation. -/
theorem of_unplanned (h : v.Unplanned) (hs : v.state ≠ some .awaitingConfirmation)
    (hp : ∀ resp, v.stage ≠ some (.publishing resp)) : v.Planned := by
  have he : ¬ v.plans.Nonempty := by simp [h.plans]
  exact ⟨fun _ h' => absurd h' he, fun h' => absurd h' hs,
    fun resp h' => absurd h' (hp resp), fun h' => absurd h' he⟩

variable {stg : ExecutionStage} {state : AgentRunState}

theorem of_executing (hv : v.Sound ts) (h : v.stage = some stg) (he : stg.expected = some state)
    (hp : v'.plans ⊆ v.plans) (hc : v'.confirming = v.confirming)
    (hs : v'.state ≠ some .awaitingConfirmation) (hpu : ∀ resp, v'.stage ≠ some (.publishing resp))
    : v'.Planned := by
  have hu := (hv.executing stg state h he).unplanned
  refine of_unplanned ⟨Set.subset_eq_empty hp hu.plans, ?_⟩ hs hpu
  intro call
  rw [hc, hu.confirming]

theorem goto {stage' : ExecutionStage} (hv : v.Sound ts) (h : v.stage = some stg)
    (he : stg.expected = some state) (hpu : ∀ resp, stage' ≠ .publishing resp)
    : (v.goto stage').Planned := by
  refine of_executing hv h he subset_rfl rfl (fun hs => ?_)
    fun resp hp => hpu resp (some.inj hp)
  have hs := (hv.executing stg state h he).state.symm.trans hs
  cases stg <;> cases he <;> cases hs

/-- A task that leaves its run records it in a state of its own. -/
theorem leaving {st' : AgentRunState} (hv : v.Sound ts) (h : v.stage = some stg)
    (he : stg.expected = some state) (hst : st' ≠ .awaitingConfirmation)
    : ((v.record st').goto .returning).Planned := by
  refine of_executing hv h he subset_rfl rfl (fun hs => ?_) nofun
  obtain ⟨_, -, hs⟩ := map_eq_some_iff.mp hs
  exact hst hs

/-- A task moves a run on to its next state. -/
theorem entering {stage' : ExecutionStage} {st' : AgentRunState}
    (hv : v.Sound ts) (h : v.stage = some stg) (he : stg.expected = some state)
    (he' : stage'.expected = some st') : ((v.record st').goto stage').Planned := by
  refine of_executing hv h he subset_rfl rfl (fun hs => ?_) fun resp hp => ?_
  · obtain ⟨_, -, hs⟩ := map_eq_some_iff.mp hs
    subst hs
    cases stage' <;> cases he'
  · cases hp
    cases he'

/-- The answer of a task is on its way, with a plan if it needs one. -/
theorem publishing_goto {res : Except String AgentResponse} {resp : AgentResponse}
    {issued : Prop} {plans : Set String} (hv : v.Sound ts)
    (h : v.stage = some (.finished res))
    (hso : resp.confirmation.isSome → plans.Nonempty)
    (hn : resp.confirmation = none → plans = ∅) :
    ({ v with issued, plans }.goto (.publishing resp)).Planned := by
  have he := hv.executing _ _ h rfl
  refine ⟨nofun, fun hs => ?_, ?_, fun _ => he.unplanned.confirming⟩
  · rw [RunView.goto, he.state] at hs
    cases hs
  · rintro _ ⟨⟩
    exact ⟨he.state, fun hc => .inl (hso hc), fun hc => ⟨hn hc, he.unplanned.confirming⟩⟩

theorem of_same (h : v.Planned) (hsa : v'.stage = v.stage) (hst : v'.state = v.state)
    (hpl : v'.plans = v.plans) (hco : v'.confirming = v.confirming)
    (hca : ∀ call stg, v.cancelling call = some stg → stg ≠ .absent →
      ∃ stage', v'.cancelling call = some stage' ∧ stage' ≠ .absent) : v'.Planned := by
  have hf (hv : v.InFlight) : v'.InFlight := by
    rcases hv with hv | ⟨call, stg, hcl, hne⟩
    · exact .inl (by rwa [hco])
    · exact .inr ⟨call, hca call stg hcl hne⟩
  refine ⟨by rw [hsa, hpl, hst]; exact h.settled, ?_, ?_, ?_⟩
  · rw [hst, hpl]
    exact fun hs => (h.awaiting hs).imp_right hf
  · rw [hsa, hst, hpl]
    intro resp hp
    obtain ⟨hs, hso, hn⟩ := h.publishing resp hp
    refine ⟨hs, fun hc => (hso hc).imp_right hf, fun hc => ?_⟩
    exact ⟨hpl.trans (hn hc).plans, fun call => by rw [hco, (hn hc).confirming]⟩
  · rw [hpl, hco]
    exact h.alone

theorem cancel {call : ℕ} (h : v.Planned) (stg : Option CancellationStage)
    (hca : v.cancelling call = none ∨ v.cancelling call = some .absent ∨
      ∃ c, stg = some c ∧ c ≠ .absent) : (v.cancel call stg).Planned := by
  refine h.of_same rfl rfl rfl rfl fun c st hc hne => ?_
  simp only [RunView.cancel, update_apply]
  split
  case isTrue heq =>
    subst heq
    rcases hca with hca | hca | hca
    · cases hc.symm.trans hca
    · cases hc.symm.trans hca
      exact absurd rfl hne
    · exact hca
  case isFalse => exact ⟨st, hc, hne⟩

/-- While a confirmation is in flight the run has no plan left. -/
theorem plans_eq_empty {call : ℕ} {stg : ConfirmationStage} (h : v.Planned)
    (hc : v.confirming call = some stg) : v.plans = ∅ := by
  by_contra hne
  rw [h.alone (Set.nonempty_iff_ne_empty.mpr hne) call] at hc
  cases hc

theorem confirm {call : ℕ} {stg : ConfirmationStage} (h : v.Planned)
    (hca : v.confirming call = some stg) (stage' : ConfirmationStage) :
    (v.confirm call (some stage')).Planned := by
  have he := h.plans_eq_empty hca
  have hf : (v.confirm call (some stage')).InFlight :=
    .inl ⟨call, stage', update_self ..⟩
  refine ⟨fun _ hp => ?_, fun _ => .inr hf, fun resp hp => ?_, fun hp => ?_⟩
  · simp [RunView.confirm, he] at hp
  · obtain ⟨hs, hso, hn⟩ := h.publishing resp hp
    refine ⟨hs, fun _ => .inr hf, fun hc => ?_⟩
    rw [(hn hc).confirming call] at hca
    cases hca
  · simp [RunView.confirm, he] at hp

/-- A run settles while none of its plans is left. -/
theorem settle (state : AgentRunState) (he : v.plans = ∅) (hs : state ≠ .awaitingConfirmation)
    (hpu : ∀ resp, v.stage ≠ some (.publishing resp)) (hv' : v'.state = v.state.map fun _ => state)
    (hp : v'.plans = v.plans) (hst : v'.stage = v.stage) : v'.Planned := by
  have hne : ¬ v'.plans.Nonempty := by simp [hp, he]
  refine ⟨fun _ h => absurd h hne, fun h => ?_,
    fun resp h => absurd (hst ▸ h) (hpu resp), fun h => absurd h hne⟩
  obtain ⟨_, -, h⟩ := map_eq_some_iff.mp (hv'.symm.trans h)
  exact absurd h hs

end RunView.Planned

/-- Every step that does not take the plan or the state of a run away from it keeps the two
together. -/
theorem RunStep.keeps_planned (h : RunStep ts runId v l v') (hv : v.Sound ts) (hl : l.Keeping v)
    (hp : v.Planned) : v'.Planned := by
  have hfr (h : ¬ v.issued) : v.stage = none := by simpa using mt hv.issued h
  cases h with
  | other => exact hp.of_same rfl rfl rfl rfl fun _ _ h hne => ⟨_, h, hne⟩
  | @evicted issued state req leased hst ht h =>
    have hne : state ≠ .awaitingConfirmation := by
      rintro rfl
      cases ht
    refine ⟨fun ho hpl => ?_, (by simp), fun resp hpu => ?_, hp.alone⟩
    · exact absurd (some.inj (hst.symm.trans (hp.settled ho hpl))) hne
    · cases hst.symm.trans (hp.publishing resp hpu).1
      cases ht
  | @swept issued plans hpl h =>
    -- The plan that is swept is about to be purged.
    obtain ⟨call, hca⟩ := hl
    have hf : ({ v with issued, plans }).InFlight := .inr ⟨call, _, hca, (by simp)⟩
    refine ⟨fun ho hne => hp.settled ho (hne.mono hpl), fun _ => .inr hf,
      fun resp hpu => ?_, fun hne => hp.alone (hne.mono hpl)⟩
    obtain ⟨hs, -, hn⟩ := hp.publishing resp hpu
    exact ⟨hs, fun _ => .inr hf, fun hc =>
      ⟨Set.subset_eq_empty hpl (hn hc).plans, (hn hc).confirming⟩⟩
  | restarted hst =>
    refine .of_unplanned ⟨rfl, fun _ => rfl⟩ (fun h => ?_) (by simp)
    cases (hst _ h).1
  | unregistered => exact hp.of_same rfl rfl rfl rfl fun _ _ h hne => ⟨_, h, hne⟩
  | registered h hst =>
    have hn := (hv.idle (hfr h)).1
    exact .of_unplanned ⟨hn.1, hn.2⟩ (fun h => hst (some.inj h))
      fun _ hp => by simp [hfr h] at hp
  | spawned h =>
    have hn := (hv.idle (hfr h)).1
    exact .of_unplanned ⟨hn.1, hn.2⟩ (by simp) (by simp)
  | started h | notStarted h | granted h | passed h | acquired h | polled h | pending h
  | toolReturned h | finished h | timedOut h => exact .goto hv h rfl (by simp)
  | calledTool h =>
    exact .of_executing hv h rfl subset_rfl rfl (fun hs => by
      cases (hv.executing _ _ h rfl).state.symm.trans hs) (fun _ h => by cases h)
  | denied h | concludedError h => exact .leaving hv h rfl (by simp)
  | observedCancel h | cancelledQueued h | cancelledRunning h => exact .leaving hv h rfl (by simp)
  | enqueued h | admitted h => exact .entering hv h rfl rfl
  | notEnqueued h | notAdmitted h => exact .leaving hv h rfl (by simp)
  | planned => exact hp
  | concluded h =>
    have hn := hv.finished _ h
    refine .publishing_goto hv h (fun hso => ?_) fun _ => (hv.executing _ _ h rfl).unplanned.plans
    rw [hn] at hso
    cases hso
  | tableFull h hpl =>
    refine .of_executing hv h rfl hpl rfl (fun hs => ?_) (fun _ h => by cases h)
    obtain ⟨_, -, hs⟩ := map_eq_some_iff.mp hs
    cases hs
  | proposed h hpl hcn _ =>
    refine .publishing_goto hv h (fun _ => Set.insert_nonempty ..) fun hn => ?_
    rw [hn] at hcn
    cases hcn
  | @published resp h =>
    obtain ⟨hs, hso, hn⟩ := hp.publishing resp h
    have hst : ((v.record (Service.finalState resp)).goto .returning).state =
        some (Service.finalState resp) := by
      simp [RunView.record, RunView.goto, hs]
    have hfi : Service.finalState resp = .awaitingConfirmation ↔
        resp.confirmation.isSome := by
      unfold Service.finalState
      split <;> simp [*]
    refine ⟨fun _ hne => ?_, fun h' => ?_, (fun _ h => by cases h), hp.alone⟩
    · by_cases hc : resp.confirmation = none
      · rw [RunView.goto, RunView.record, (hn hc).plans] at hne
        exact absurd hne Set.not_nonempty_empty
      · rw [hst, hfi.mpr (isSome_iff_ne_none.mpr hc)]
    · exact hso (hfi.mp (some.inj (hst.symm.trans h')))
  | dropped h =>
    exact ⟨fun _ => hp.settled (.inl h), hp.awaiting, (fun _ h => by cases h), hp.alone⟩
  | @taken call pl hpa hca =>
    have he : v.plans \ {pl} = ∅ := by
      ext p
      simp only [Set.mem_sdiff, Set.mem_singleton_iff, Set.mem_empty_iff_false, iff_false,
        not_and, not_not]
      exact fun hm => hv.planned p hm pl hpa
    have hf : ({ v with plans := v.plans \ {pl} }.confirm call (some .taken)).InFlight :=
      .inl ⟨call, .taken, update_self ..⟩
    refine ⟨fun _ hne => ?_, fun _ => .inr hf, fun resp hpu => ?_, fun hne => ?_⟩
    · simp [RunView.confirm, he] at hne
    · obtain ⟨hs, -, hn⟩ := hp.publishing resp hpu
      refine ⟨hs, fun _ => .inr hf, fun hc => ?_⟩
      rw [(hn hc).plans] at hpa
      exact hpa.elim
    · simp [RunView.confirm, he] at hne
  | moved hca hmo => exact hp.confirm hca _
  | @ended call hca hto =>
    have hco : ts := hv.configured fun h => by
      rw [h.confirming call] at hca
      cases hca
    exact absurd (hco.symm.trans hto) (by simp)
  | calledConfirmed hca =>
    exact (hp.confirm hca _).of_same rfl rfl rfl rfl fun _ _ h hne => ⟨_, h, hne⟩
  | @resolved call state err hca =>
    have hst : state ≠ .awaitingConfirmation := by
      rcases hv.resolving call state err hca with rfl | rfl <;> rintro ⟨⟩
    exact .settle state (hp.plans_eq_empty hca) hst hl rfl rfl rfl
  | sent | unreceived => exact hp.of_same rfl rfl rfl rfl fun _ _ h hne => ⟨_, h, hne⟩
  | absent _ hca => exact hp.cancel _ (.inl hca)
  | lookedAwaiting hca _ => exact hp.cancel _ (.inr (.inl hca))
  | looked hca _ =>
    exact (hp.cancel none (.inr (.inl hca))).of_same rfl rfl rfl rfl
      fun _ _ h hne => ⟨_, h, hne⟩
  | @purged call hca =>
    have hf : ({ v with plans := ∅ }.cancel call (some .purged)).InFlight :=
      .inr ⟨call, .purged, update_self .., (by simp)⟩
    refine ⟨fun _ hne => absurd hne Set.not_nonempty_empty, fun _ => .inr hf,
      fun resp hpu => ?_, fun hne => absurd hne Set.not_nonempty_empty⟩
    cases hv.calm hpu (by simp) (by simp) call _ hca
  | @cancelSettled call hca =>
    exact .settle .cancelled (hv.purged call hca) (by simp)
      (fun _ h => by cases hv.calm h (by simp) (by simp) call _ hca) rfl rfl rfl
  | @cancelFailed call hca =>
    exact .settle .cancelled (hv.purged call hca) (by simp)
      (fun _ h => by cases hv.calm h (by simp) (by simp) call _ hca) rfl rfl rfl

/-- Nothing is in progress for a run. -/
structure RunView.Idle (v : RunView) : Prop where
  stage : v.stage = none ∨ v.stage = some .returned
  confirming : ∀ call, v.confirming call = none
  cancelling : ∀ call, v.cancelling call = none

theorem RunView.Idle.awaiting_iff (h : v.Idle) (hv : v.Sound ts) (hp : v.Planned) :
    v.state = some .awaitingConfirmation ↔ ∃! pl, pl ∈ v.plans := by
  constructor
  · intro hst
    rcases hp.awaiting hst with ⟨pl, hpl⟩ | ⟨call, stage, hc⟩ | ⟨call, stage, hc, -⟩
    · exact ⟨pl, hpl, fun q hq => hv.planned q hq pl hpl⟩
    · cases (h.confirming call).symm.trans hc
    · cases (h.cancelling call).symm.trans hc
  · rintro ⟨pl, hpl, -⟩
    rcases h.stage with hs | hs
    · simp [(hv.idle hs).1.plans] at hpl
    · exact hp.settled (.inr hs) ⟨pl, hpl⟩

namespace Service

/-- The task of the run is about to publish its answer. -/
def isPublishing (s : Service) (runId : String) : Bool :=
  match s.executions[runId]? with
  | some { stage := .publishing _, .. } => true
  | _ => false

theorem isPublishing_of_view {resp : AgentResponse}
    (h : (s.view r).stage = some (.publishing resp)) : s.isPublishing r := by
  obtain ⟨⟨req, lid, ress, stage⟩, he, rfl⟩ := map_eq_some_iff.mp h
  simp [isPublishing, he]

/-- A cancellation of the run that found it awaiting confirmation is about to purge its plan. -/
def Cancelling (s : Service) (runId : String) : Prop :=
  ∃ entry ∈ s.cancellations.toList, entry.2.runId = runId ∧ entry.2.stage = .awaiting

/-- A run keeps its plan and its state together: the sweep of a proposal finds no expired
plan of the run that is not about to be purged, and no confirmation of the run is resolved
before its answer is published. -/
def KeepsPlan (runId : String) (s : Service) : ServiceEvent → Prop
  | .execution _ (.propose _ _) => ∀ entry ∈ s.pendingAgentActions.toList,
    entry.2.runId = runId → s.instant < entry.2.expiresAt ∨ s.Cancelling runId
  | .confirmation call (.resolve _) => ∀ confirmation ∈ s.confirmations[call]?,
    confirmation.pending.runId = runId → s.isPublishing runId = false
  | _ => True

instance (s : Service) (runId : String) : Decidable (s.Cancelling runId) :=
  inferInstanceAs (Decidable (∃ entry ∈ s.cancellations.toList, _ ∧ _))

instance (runId : String) (s : Service) : DecidablePred (s.KeepsPlan runId)
  | .execution _ (.propose _ _) => inferInstanceAs (Decidable
    (∀ entry ∈ s.pendingAgentActions.toList, _ → _ ∨ _))
  | .confirmation call (.resolve _) => inferInstanceAs (Decidable
    (∀ confirmation ∈ s.confirmations[call]?, _ → _))
  | .execution _ (.start _) | .execution _ (.authorize _ _) | .execution _ (.observe _)
  | .execution _ (.enqueue _) | .execution _ (.cancel _) | .execution _ .acquire
  | .execution _ (.markRunning _) | .execution _ .poll | .execution _ .pend | .execution _ (.plan _)
  | .execution _ (.callTool _ _ _) | .execution _ (.toolReturned _ _)
  | .execution _ (.finish _ _) | .execution _ .timeOut | .execution _ (.conclude _)
  | .execution _ (.publish _) | .execution _ .drop | .confirmation _ .check
  | .confirmation _ (.prompt _) | .confirmation _ (.execute _) | .confirmation _ (.executed _)
  | .tick _ _ | .setAgentDefinitions _ | .setDisabledAgents _ | .expireLeases
  | .revokeCapabilityLease _ | .startAgent _ _ _ _ _ | .fireAgentTrigger _ _ _ _ _ _ _
  | .retryAgentRun _ _ _ _ _ | .confirmAgentAction _ _ _ | .cancelAgentRun _ _
  | .cancellation _ _ | .restart _ _ => isTrue trivial

theorem label_keeping (hok : s.KeepsPlan r e) : (label config s r e).Keeping (s.view r) := by
  unfold RunLabel.Keeping
  split
  case h_1 hl =>
    obtain ⟨runId, pl, reply, rfl, id, plan, hp, hr, he⟩ := (label_spec config s r e).sweep hl
    rcases hok (id, plan) (mem_toList_iff_getElem?_eq_some.mpr hp) hr with
      hf | ⟨⟨call, can⟩, hm, hr', hs⟩
    · exact absurd he (Nat.not_le_of_lt hf)
    · have hg := mem_toList_iff_getElem?_eq_some.mp hm
      exact ⟨call, by simpa [view, inFlight, hg] using ⟨hr', hs⟩⟩
  case h_2 hl =>
    obtain ⟨call, conf, reply, rfl, hc, hr⟩ := (label_spec config s r e).resolve hl
    intro resp hpu
    have hn : s.isPublishing r = false := hok conf hc hr
    rw [isPublishing_of_view hpu] at hn
    cases hn
  case h_3 => trivial

/-- No task of the run is underway, and no confirmation or cancellation of it. -/
def Idle (s : Service) (runId : String) : Prop :=
  s.hasReceiver runId = false ∧
    (∀ entry ∈ s.confirmations.toList, entry.2.pending.runId ≠ runId) ∧
      ∀ entry ∈ s.cancellations.toList, entry.2.runId ≠ runId

instance (s : Service) (runId : String) : Decidable (s.Idle runId) :=
  inferInstanceAs (Decidable (_ ∧ _ ∧ _))

theorem confirming_none (h : ∀ e ∈ s.confirmations.toList, e.2.pending.runId ≠ r) (call : ℕ)
    : (s.view r).confirming call = none := by
  cases hc : s.confirmations[call]? with
  | none => simp [view, inFlight, hc]
  | some conf =>
    have := h _ (mem_toList_iff_getElem?_eq_some.mpr hc)
    simp [view, inFlight, hc, this]

theorem view_idle (h : s.Idle r) : (s.view r).Idle := by
  obtain ⟨ht, hco, hc⟩ := h
  refine ⟨?_, confirming_none hco, fun call => ?_⟩
  · have hn : ¬ ∃ stage, (s.view r).stage = some stage ∧ stage ≠ .returned := by
      rw [← hasReceiver_iff, ht]
      nofun
    cases hs : (s.view r).stage with
    | none => exact .inl rfl
    | some stage =>
      by_contra hne
      exact hn ⟨stage, hs, fun h => hne (.inr (h ▸ rfl))⟩
  · cases hca : s.cancellations[call]? with
    | none => simp [view, inFlight, hca]
    | some can =>
      have := hc _ (mem_toList_iff_getElem?_eq_some.mpr hca)
      simp [view, inFlight, hca, this]

/-- The invariant of the runs that keep the plan of `r`. -/
def KeepingPlan (config : ServiceConfig) (r : String) (s : Service) : Prop :=
  s.WellFormed config ∧ (s.view r).Planned

theorem step_keepingPlan (h : s.step config e = some t) (hok : s.KeepsPlan r e)
    (hs : s.KeepingPlan config r) : t.KeepingPlan config r :=
  ⟨step_wellFormed hs.1 h, (view_step hs.1.issues h r).keeps_planned (hs.1.sound r)
    (label_keeping hok) hs.2⟩

theorem new_planned (defs : BTreeMap String AgentDefinition) (sto : Bool) (unixNow instant : ℕ)
    (r : String) :
    ((new defs sto unixNow instant).view r).Planned := by
  refine .of_unplanned ⟨?_, fun call => ?_⟩ ?_ ?_
  · simp [view, new]
  · simp [view, new, inFlight]
  · simp [view, new]
  · simp [view, new]

/-- While nothing is in progress for a run, it awaits confirmation exactly when one plan of
it is in the table. -/
theorem awaiting_iff_planned {definitions : BTreeMap String AgentDefinition} {stored : Bool}
    {unixNow instant : ℕ} {es : List ServiceEvent}
    (hrun : run (step config) (new definitions stored unixNow instant) es = some t)
    (hmeets : Meets (step config) (KeepsPlan r) (new definitions stored unixNow instant) es)
    (hidle : t.Idle r) :
    t.agentRuns[r]?.map (·.state) = some .awaitingConfirmation ↔
      ∃! planId : String, ∃ plan : PendingAgentAction,
        t.pendingAgentActions[planId]? = some plan ∧ plan.runId = r := by
  have hi : t.KeepingPlan config r := run_invariant_of_meets step_keepingPlan hmeets hrun
    ⟨new_wellFormed .., new_planned ..⟩
  exact (view_idle hidle).awaiting_iff (hi.1.sound r) hi.2

/-- The agent of a run proposes to open the network settings. -/
def proposal : AgentResponse :=
  { runId := "", provider := "openai", model := none, answer := "Open the network settings?",
    usage := none, steps := [],
    proposedAction := some ⟨"open_settings_panel", .object [("panel", .string "network")]⟩,
    confirmation := none }

/-- A task whose agent proposes an action. -/
def proposingTask (runId leaseId planId : String) : List ServiceEvent :=
  .startAgent sampleRequest none runId leaseId accepted :: polledTask runId ++
    [.finish (.ok proposal) written, .propose planId written, .publish written, .drop].map
      (.execution runId)

/-- A proposal is made while the plan of an earlier run has expired. -/
def sweptPlan : List ServiceEvent :=
  proposingTask (sampleId 'a') (sampleId 'b') (sampleId 'c') ++
    .tick 1200 (agentActionTtl + 1) :: proposingTask (sampleId 'd') (sampleId 'e') (sampleId 'f')

theorem awaiting_iff_planned_proposed : ∃ t,
    run (step sampleConfig) sampleService
      (proposingTask (sampleId 'a') (sampleId 'b') (sampleId 'c')) = some t ∧
      (t.agentRuns[sampleId 'a']?.map (·.state) = some .awaitingConfirmation ↔
        ∃! planId : String, ∃ plan : PendingAgentAction,
          t.pendingAgentActions[planId]? = some plan ∧ plan.runId = sampleId 'a') := by
  obtain ⟨hm, t, hr, hi⟩ := exists_conforming (KeepsPlan (sampleId 'a'))
    (proposingTask (sampleId 'a') (sampleId 'b') (sampleId 'c'))
    (fun t => t.Idle (sampleId 'a')) (by decide +kernel)
  exact ⟨t, hr, awaiting_iff_planned hr hm hi⟩

/-- After the sweep the earlier run awaits confirmation without a plan. -/
theorem swept_run_awaits_without_plan : ∃ t,
    run (step sampleConfig) sampleService sweptPlan = some t ∧ t.Idle (sampleId 'a') ∧
      t.agentRuns[sampleId 'a']?.map (·.state) = some .awaitingConfirmation ∧
        ∀ entry ∈ t.pendingAgentActions.toList, entry.2.runId ≠ sampleId 'a' :=
  exists_last _ _ (by decide +kernel)

end Service

end FocalDesk
