import FocalDesk.Agent.Lifecycle

/-! What holds of a run at each stage of its task, in every state of its protocol. -/
namespace FocalDesk
open Option Function

variable {tools : Bool} {rid : String} {v v' : RunView} {l : RunLabel}

/-- The state a run is recorded in while its task is at this stage. -/
def ExecutionStage.expected : ExecutionStage → Option AgentRunState
  | .starting | .permission | .permitted | .enqueuing => some .waitingForPermission
  | .queued | .admitted => some .queued
  | .running _ _ | .finished _ => some .running
  | .publishing _ | .returning | .returned => none

namespace RunView

/-- No plan of the run exists, in the table or with a confirmation. -/
structure Unplanned (v : RunView) : Prop where
  plans : v.plans = ∅
  confirming : ∀ call, v.confirming call = none

structure Executing (v : RunView) (state : AgentRunState) : Prop where
  state : v.state = some state
  requested : v.requested
  leased : v.leased
  sender : v.sender.isSome = true
  unplanned : v.Unplanned

/-- What holds of every run. -/
structure Sound (tools : Bool) (v : RunView) : Prop where
  issued : v.stage.isSome = true → v.issued
  idle : v.stage = none → v.Unplanned ∧ v.state ≠ some .awaitingConfirmation
  executing : ∀ stage state, v.stage = some stage → stage.expected = some state → v.Executing state
  publishing : ∀ response, v.stage = some (.publishing response) →
    v.state ≠ some .awaitingConfirmation
  planned : ∀ p ∈ v.plans, ∀ q ∈ v.plans, p = q
  cancelling : ∀ call stage, v.cancelling call = some stage → stage ≠ .absent →
    v.stage = some .returning ∨ v.stage = some .returned
  purged : ∀ call, v.cancelling call = some .purged → v.plans = ∅
  resolving : ∀ call state error, v.confirming call = some (.resolving state error) →
    state = .completed ∨ state = .failed
  finished : ∀ response, v.stage = some (.finished (.ok response)) → response.confirmation = none
  configured : ¬ v.Unplanned → tools = true
  started : ∀ stage, v.stage = some stage → stage ≠ .starting → stage ≠ .returned → tools = true

namespace Sound

variable (hv : v.Sound tools)
include hv

/-- Steps that leave the task of the run where it is. -/
theorem of_stage_eq (hst : v'.stage = v.stage) (hi : v.issued → v'.issued)
    (he : ∀ stage st, v.stage = some stage → stage.expected = some st →
      v.Executing st → v'.Executing st)
    (hpl : v'.plans ⊆ v.plans) (hu : v.Unplanned → v'.Unplanned)
    (hsa : v'.state = some .awaitingConfirmation → v.state = some .awaitingConfirmation)
    (hc : ∀ call stage, v'.cancelling call = some stage → stage ≠ .absent →
      v.stage = some .returning ∨ v.stage = some .returned)
    (hpu : ∀ call, v'.cancelling call = some .purged → v'.plans = ∅)
    (hr : ∀ call st err, v'.confirming call = some (.resolving st err) →
      st = .completed ∨ st = .failed) : v'.Sound tools := by
  refine ⟨fun h => hi (hv.issued (hst ▸ h)), fun h => ?_, fun stage st h hex =>
    he stage st (hst ▸ h) hex (hv.executing stage st (hst ▸ h) hex), fun resp h hs =>
    hv.publishing resp (hst ▸ h) (hsa hs), fun p hp q hq =>
    hv.planned p (hpl hp) q (hpl hq), by rwa [hst], hpu, hr,
    fun resp h => hv.finished resp (hst ▸ h),
    fun h => hv.configured (mt hu h), fun stage h => hv.started stage (hst ▸ h)⟩
  obtain ⟨hn, hs⟩ := hv.idle (hst ▸ h)
  exact ⟨hu hn, mt hsa hs⟩

variable {stg : ExecutionStage}

theorem calm (h : v.stage = some stg) (hre : stg ≠ .returning) (hr : stg ≠ .returned) (call : ℕ)
    (c : CancellationStage) (hca : v.cancelling call = some c) : c = .absent := by
  by_contra hc
  rcases hv.cancelling call c hca hc with h' | h'
  · exact hre (some.inj (h.symm.trans h'))
  · exact hr (some.inj (h.symm.trans h'))

/-- A task that executes its run moves on. -/
theorem enter {stage' : ExecutionStage} {st st' : AgentRunState}
    (h : v.stage = some stg) (hex : stg.expected = some st)
    (he' : stage'.expected = some st') (ht : tools)
    (hf : ∀ resp, stage' = .finished (.ok resp) → resp.confirmation = none) :
    ((v.record st').goto stage').Sound tools := by
  have he := hv.executing stg st h hex
  have hu : ((v.record st').goto stage').Unplanned := ⟨he.unplanned.plans, he.unplanned.confirming⟩
  have hca := hv.calm h (by rintro rfl; cases hex) (by rintro rfl; cases hex)
  refine ⟨fun _ => hv.issued (by simp [h]), nofun, ?_, ?_, ?_, ?_, ?_, ?_, ?_, ?_, fun _ _ _ _ => ht⟩
  · rintro _ x ⟨⟩ hx
    obtain rfl : st' = x := some.inj (he'.symm.trans hx)
    exact ⟨by simp [RunView.record, RunView.goto, he.state], he.requested, he.leased, he.sender, hu⟩
  · rintro resp ⟨⟩
    cases he'
  · exact hv.planned
  · exact fun call c hcl hc => absurd (hca call c hcl) hc
  · exact hv.purged
  · exact hv.resolving
  · rintro resp ⟨⟩
    exact hf resp rfl
  · exact fun h => absurd hu h

theorem goto {stage' : ExecutionStage} {st : AgentRunState} (h : v.stage = some stg)
    (he : stg.expected = some st) (he' : stage'.expected = some st) (ht : tools)
    (hf : ∀ resp, stage' = .finished (.ok resp) → resp.confirmation = none) :
    (v.goto stage').Sound tools := by
  have hr : v.record st = v := by
    have hs := (hv.executing stg st h he).state
    rw [RunView.record, hs, map_some, ← hs]
  have := hv.enter h he he' ht hf
  rwa [hr] at this

/-- A task leaves its run. -/
theorem leave (h : v.stage = some stg) (v' : RunView)
    (hs : v'.stage = some .returning ∨ v'.stage = some .returned) (hi : v'.issued = v.issued)
    (hpl : v'.plans ⊆ v.plans) (hco : v'.confirming = v.confirming)
    (hc : v'.cancelling = v.cancelling) (ht : v'.stage = some .returning → tools)
    : v'.Sound tools := by
  have ho {stg} (h : v'.stage = some stg) : stg = .returning ∨ stg = .returned := by
    rw [h] at hs
    simpa using hs
  have hpa (h : v.Unplanned) : v'.Unplanned :=
    ⟨Set.subset_eq_empty hpl h.plans, fun call => by rw [hco, h.confirming]⟩
  refine ⟨fun _ => hi ▸ hv.issued (by simp [h]), fun h => ?_, fun stg st h he => ?_,
    fun resp h => ?_, fun p hp q hq => hv.planned p (hpl hp) q (hpl hq),
    fun _ _ _ _ => hs, fun call hca => ?_, fun call st err hca => ?_,
    fun resp h => ?_, fun h => hv.configured (mt hpa h), fun stg h _ hne => ?_⟩
  · rw [h] at hs
    simp at hs
  · rcases ho h with rfl | rfl <;> cases he
  · rcases ho h with h | h <;> cases h
  · exact Set.subset_eq_empty hpl (hv.purged call (by rwa [← hc]))
  · exact hv.resolving call st err (by rwa [← hco])
  · rcases ho h with h | h <;> cases h
  · rcases ho h with rfl | rfl
    · exact ht h
    · exact absurd rfl hne

theorem leaving (h : v.stage = some stg) (hs : stg ≠ .starting) (hr : stg ≠ .returned)
    (st : AgentRunState) :
    ((v.record st).goto .returning).Sound tools :=
  hv.leave h _ (.inl rfl) rfl subset_rfl rfl rfl fun _ => hv.started stg h hs hr

/-- A confirmation moves on, or ends. -/
theorem confirm {call : ℕ} {stg : ConfirmationStage} (hca : v.confirming call = some stg)
    (stage' : Option ConfirmationStage)
    (hr : ∀ st err, stage' = some (.resolving st err) →
      st = .completed ∨ st = .failed) : (v.confirm call stage').Sound tools := by
  have hp : ¬ v.Unplanned := fun h => by
    rw [h.confirming call] at hca
    cases hca
  refine hv.of_stage_eq rfl id (fun _ _ _ _ h => absurd h.unplanned hp) subset_rfl
    (fun h => absurd h hp) id hv.cancelling hv.purged fun c st err hc => ?_
  simp only [RunView.confirm, update_apply] at hc
  split at hc
  · exact hr st err hc
  · exact hv.resolving c st err hc

/-- A run is recorded in a terminal state while it is not executing. -/
theorem record (st : AgentRunState) (hs : st ≠ .awaitingConfirmation)
    (hst : ∀ stg, v.stage = some stg → stg.expected = none) :
    (v.record st).Sound tools := by
  refine hv.of_stage_eq rfl id (fun stg _ h he => ?_) subset_rfl (fun h => ⟨h.1, h.2⟩)
    (fun h => ?_) hv.cancelling hv.purged hv.resolving
  · rw [hst stg h] at he
    cases he
  · obtain ⟨_, -, h⟩ := map_eq_some_iff.mp h
    exact absurd h hs

theorem expected_eq_none {call : ℕ} {c : ConfirmationStage}
    (hc : v.confirming call = some c) (h : v.stage = some stg) : stg.expected = none := by
  by_contra he
  obtain ⟨st, hs⟩ := ne_none_iff_exists'.mp he
  rw [(hv.executing stg st h hs).unplanned.confirming call] at hc
  cases hc

theorem closed {call : ℕ} (hc : v.cancelling call = some .purged) (h : v.stage = some stg)
    : stg.expected = none := by
  rcases hv.cancelling call _ hc nofun with ho | ho
  · cases h.symm.trans ho
    rfl
  · cases h.symm.trans ho
    rfl

theorem observe (observation : Observation) : (v.observe observation).Sound tools :=
  hv.of_stage_eq rfl id (fun _ _ _ _ h => ⟨h.1, h.2, h.3, h.4, ⟨h.5.1, h.5.2⟩⟩) subset_rfl
    (fun h => ⟨h.1, h.2⟩) id hv.cancelling hv.purged hv.resolving

theorem cancel {call : ℕ} (stg : Option CancellationStage)
    (hs : ∀ c, stg = some c → c ≠ .absent → v.stage = some .returning ∨ v.stage = some .returned)
    (hp : stg = some .purged → v.plans = ∅) : (v.cancel call stg).Sound tools := by
  refine hv.of_stage_eq rfl id (fun _ _ _ _ h => ⟨h.1, h.2, h.3, h.4, ⟨h.5.1, h.5.2⟩⟩) subset_rfl
    (fun h => ⟨h.1, h.2⟩) id (fun c stg hc hne => ?_) (fun c hc => ?_) hv.resolving
  · simp only [RunView.cancel, update_apply] at hc
    split at hc
    · exact hs stg hc hne
    · exact hv.cancelling c stg hc hne
  · simp only [RunView.cancel, update_apply] at hc
    split at hc
    · exact hp hc
    · exact hv.purged c hc

/-- The answer of a task is published, with a plan if it proposed one. -/
theorem publishing_goto {res : Except String AgentResponse} {resp : AgentResponse}
    {issued : Prop} {plans : Set String} (h : v.stage = some (.finished res))
    (hi : v.issued → issued) (hp : ∀ p ∈ plans, ∀ q ∈ plans, p = q) :
    ({ v with issued, plans }.goto (.publishing resp)).Sound tools := by
  have ht := hv.started _ h nofun nofun
  have he := hv.executing _ _ h rfl
  have hcl := hv.calm h nofun nofun
  refine ⟨fun _ => hi (hv.issued (by simp [h])), nofun, ?_, ?_, hp, ?_, ?_, hv.resolving,
    nofun, fun _ => ht, fun _ _ _ _ => ht⟩
  · rintro _ _ ⟨⟩ ⟨⟩
  · intro _ _ hs
    rw [RunView.goto, he.state] at hs
    cases hs
  · exact fun call c hca hc => absurd (hcl call c hca) hc
  · exact fun call hca => nomatch hcl call _ hca

/-- A run that awaits confirmation has left its task. -/
theorem awaiting (h : v.state = some .awaitingConfirmation) :
    v.stage = some .returning ∨ v.stage = some .returned := by
  cases hs : v.stage with
  | none => exact absurd h (hv.idle hs).2
  | some stg =>
    cases he : stg.expected with
    | some st =>
      have hst := h.symm.trans (hv.executing stg st hs he).state
      cases stg <;> cases he <;> cases hst
    | none =>
      cases stg with
      | publishing resp => exact absurd h (hv.publishing resp hs)
      | returning => exact .inl rfl
      | returned => exact .inr rfl
      | _ => cases he

theorem removePlans {plans : Set String} {issued : Prop} (hp : plans ⊆ v.plans)
    (h : v.issued → issued) : { v with plans, issued }.Sound tools := by
  have hu (h : v.Unplanned) : { v with plans, issued }.Unplanned :=
    ⟨Set.subset_eq_empty hp h.plans, h.confirming⟩
  exact hv.of_stage_eq rfl h (fun _ _ _ _ h => ⟨h.1, h.2, h.3, h.4, hu h.5⟩) hp hu id
    hv.cancelling (fun call hc => Set.subset_eq_empty hp (hv.purged call hc)) hv.resolving

end Sound

end RunView

/-- Every step keeps what holds of every run. -/
theorem RunStep.sound (h : RunStep tools rid v l v') (hv : v.Sound tools) : v'.Sound tools := by
  have hse : { v with sender := some true }.Sound tools :=
    hv.of_stage_eq rfl id (fun _ _ _ _ h => ⟨h.1, h.2, h.3, rfl, ⟨h.5.1, h.5.2⟩⟩) subset_rfl
      (fun h => ⟨h.1, h.2⟩) id hv.cancelling hv.purged hv.resolving
  cases h with
  | other h => exact hv.removePlans subset_rfl h
  | @evicted issued st req leased hs hte h =>
    refine hv.of_stage_eq rfl h (fun stage x hst he hx => ?_) subset_rfl
      (fun h => ⟨h.1, h.2⟩) nofun hv.cancelling hv.purged hv.resolving
    -- An executing run is not in a terminal state.
    obtain rfl : st = x := some.inj (hs.symm.trans hx.state)
    cases stage <;> cases he <;> cases hte
  | swept hp h => exact hv.removePlans hp h
  | restarted hs =>
    refine ⟨nofun, fun _ => ⟨⟨rfl, fun _ => rfl⟩, fun h => ?_⟩, nofun, nofun, nofun, nofun, nofun,
      nofun, nofun, fun h => absurd ⟨rfl, fun _ => rfl⟩ h, nofun⟩
    cases (hs _ h).1
  | unregistered h =>
    have hst : v.stage = none := by simpa using mt hv.issued h
    exact hv.of_stage_eq rfl (fun _ => trivial) (fun _ _ h => nomatch hst.symm.trans h)
      subset_rfl (fun h => ⟨h.1, h.2⟩) id hv.cancelling hv.purged hv.resolving
  | registered h hs _ =>
    have hst : v.stage = none := by simpa using mt hv.issued h
    exact hv.of_stage_eq rfl (fun _ => trivial) (fun _ _ h => nomatch hst.symm.trans h)
      subset_rfl (fun h => ⟨h.1, h.2⟩) (fun h => absurd (some.inj h) hs) hv.cancelling
      hv.purged hv.resolving
  | spawned h =>
    have hst : v.stage = none := by simpa using mt hv.issued h
    have hn := (hv.idle hst).1
    have ha (call c) (hc : v.cancelling call = some c) : c = .absent := by
      by_contra hne
      simpa [hst] using hv.cancelling call c hc hne
    refine ⟨fun _ => trivial, nofun, ?_, nofun, hv.planned, ?_, hv.purged, hv.resolving, nofun,
      fun h => absurd ⟨hn.1, hn.2⟩ h, ?_⟩
    · rintro _ _ ⟨⟩ ⟨⟩
      exact ⟨rfl, trivial, trivial, rfl, hn.1, hn.2⟩
    · exact fun call c hc hne => absurd (ha call c hc) hne
    · rintro _ ⟨⟩ hne
      exact absurd rfl hne
  | started h ht => exact hv.goto h rfl rfl ht nofun
  | notStarted h => exact hv.leave h _ (.inr rfl) rfl subset_rfl rfl rfl nofun
  | granted h => exact hv.goto h rfl rfl (hv.started _ h nofun nofun) nofun
  | denied h => exact hv.leaving h nofun nofun .failed
  | observedCancel h _ => exact hv.leaving h nofun nofun .cancelled
  | passed h _ => exact hv.goto h rfl rfl (hv.started _ h nofun nofun) nofun
  | enqueued h => exact hv.enter h rfl rfl (hv.started _ h nofun nofun) nofun
  | notEnqueued h => exact hv.leaving h nofun nofun .queued
  | cancelledQueued h _ => exact hv.leaving h nofun nofun .cancelled
  | acquired h => exact hv.goto h rfl rfl (hv.started _ h nofun nofun) nofun
  | admitted h => exact hv.enter h rfl rfl (hv.started _ h nofun nofun) nofun
  | notAdmitted h => exact hv.leaving h nofun nofun .running
  | polled h => exact hv.goto h rfl rfl (hv.started _ h nofun nofun) nofun
  | pending h => exact hv.goto h rfl rfl (hv.started _ h nofun nofun) nofun
  | planned => exact hv
  | calledTool h =>
    exact (hv.observe _).goto h rfl rfl (hv.started _ h nofun nofun) nofun
  | toolReturned h => exact hv.goto h rfl rfl (hv.started _ h nofun nofun) nofun
  | finished h hr =>
    refine hv.goto h rfl rfl (hv.started _ h nofun nofun) fun resp hf => ?_
    exact hr resp (by simpa using hf)
  | timedOut h =>
    exact hv.leave h _ (.inl rfl) rfl subset_rfl rfl rfl fun _ => hv.started _ h nofun nofun
  | cancelledRunning h _ => exact hv.leaving h nofun nofun .cancelled
  | concludedError h => exact hv.leaving h nofun nofun .failed
  | concluded h => exact hv.publishing_goto h id hv.planned
  | tableFull h hp =>
    exact hv.leave h _ (.inl rfl) rfl hp rfl rfl fun _ => hv.started _ h nofun nofun
  | proposed h hp _ hi =>
    refine hv.publishing_goto h hi ?_
    rw [Set.subset_eq_empty hp (hv.executing _ _ h rfl).unplanned.plans]
    simp
  | published h => exact hv.leaving h nofun nofun _
  | dropped h => exact hv.leave h _ (.inr rfl) rfl subset_rfl rfl rfl nofun
  | @taken call pl hpa hca =>
    have hpl : ¬ v.Unplanned := fun h => by simp [h.plans] at hpa
    refine hv.of_stage_eq rfl id (fun _ _ _ _ h => absurd h.unplanned hpl)
      Set.sdiff_subset (fun h => absurd h hpl) id hv.cancelling (fun call hc => ?_)
      fun c st err hc => ?_
    · exact Set.subset_eq_empty Set.sdiff_subset (hv.purged call hc)
    · simp only [RunView.confirm, update_apply] at hc
      split at hc
      · cases hc
      · exact hv.resolving c st err hc
  | moved hca hm =>
    refine hv.confirm hca _ ?_
    cases hm with
    | check h =>
      rintro st err ⟨⟩
      rcases h with h | ⟨_, h | h⟩
      · cases h
      · cases h
        exact .inr rfl
      · cases h
        exact .inl rfl
    | refused | unauthorized | failed =>
      rintro st err ⟨⟩
      exact .inr rfl
    | approved => nofun
    | executed =>
      rintro st err ⟨⟩
      exact .inl rfl
  | ended hca _ => exact hv.confirm hca none nofun
  | calledConfirmed hca => exact (hv.observe _).confirm hca _ nofun
  | @resolved call st err hca =>
    have hs : st ≠ .awaitingConfirmation := by
      rcases hv.resolving call st err hca with rfl | rfl <;> nofun
    exact (hv.record st hs fun stage h => hv.expected_eq_none hca h).confirm hca none nofun
  | sent _ _ => exact hse.observe _
  | unreceived => exact hv.observe _
  | absent _ _ => exact hv.cancel _ (by rintro _ ⟨⟩; simp) nofun
  | lookedAwaiting _ hs => exact hv.cancel _ (fun _ _ _ => hv.awaiting hs) nofun
  | looked _ _ => exact (hv.cancel none nofun nofun).observe _
  | purged hca =>
    have ho := hv.cancelling _ _ hca nofun
    exact (hv.removePlans (Set.empty_subset _) id).cancel _ (fun _ _ _ => ho) fun _ => rfl
  | cancelSettled hca =>
    exact ((hv.record .cancelled nofun fun _ h => hv.closed hca h).cancel none nofun nofun).observe _
  | cancelFailed hca =>
    exact (hv.record .cancelled nofun fun _ h => hv.closed hca h).cancel none nofun nofun

end FocalDesk
