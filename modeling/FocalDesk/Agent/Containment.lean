import FocalDesk.Agent.Loop

/-! Containment of the agent loop: what the replies of a provider can make it do. -/
namespace FocalDesk
open Library List Except

namespace AgentAct

def isExecute : AgentAct → Bool
  | .execute .. => true
  | _ => false

def isProposal : AgentAct → Bool
  | .emit (.actionProposed _) => true
  | _ => false

/-- The step that an execution without an error adds. -/
def executed (codec : AgentCodec) : AgentAct → Option AgentStepResult
  | .execute tool arguments (.ok value) =>
    some { tool, arguments, result := boundValue codec value }
  | _ => none

/-- The tool that an act proposes. -/
def proposed : AgentAct → Option String
  | .emit (.actionProposed tool) => some tool
  | _ => none

end AgentAct

/-- The calls of tools that a catalogue and its limits permit: the tool is in the permitted
catalogue and not marked mutating, and its arguments are an object without a confirmation. -/
structure PermittedCall (tools : List AgentToolSpec) (tool : String) (arguments : Value) : Prop where
  readOnly : ∃ spec, findTool tools tool = some spec ∧ spec.mutating = false
  object : arguments.isObject = true
  unconfirmed : arguments.get "confirmed" = none

/-- A list of acts that stays within the limits: every execution is permitted, there are not more
of them than rounds, and nothing is executed or proposed after a proposal. -/
structure Contained (tools : List AgentToolSpec) (rounds : ℕ) (acts : List AgentAct) : Prop where
  permitted : ∀ tool arguments result, .execute tool arguments result ∈ acts →
    PermittedCall tools tool arguments
  bounded : acts.countP AgentAct.isExecute ≤ rounds
  last : acts.Pairwise fun earlier later =>
    earlier.isProposal = true → later.isExecute = false ∧ later.isProposal = false

variable {codec : AgentCodec} {env : AgentEnvironment} {request req : AgentRequest}
  {lims : LoopLimits} {tools : List AgentToolSpec} {rs : ℕ} {state : LoopState}
  {last : LoopEnd} {acts more : List AgentAct}

/-- Acts that neither execute nor propose anything. -/
def Harmless (acts : List AgentAct) : Prop :=
  ∀ act ∈ acts, act.isExecute = false ∧ act.isProposal = false

theorem Harmless.contained (h : Harmless acts) : Contained tools rs acts := by
  refine ⟨?_, ?_, ?_⟩
  · intro tool arguments result hm
    exact absurd (h _ hm).1 (by simp [AgentAct.isExecute])
  · have hz : acts.countP AgentAct.isExecute = 0 := by
      rw [countP_eq_zero]
      intro act ha
      simp [(h act ha).1]
    omega
  · apply pairwise_of_forall_mem_list
    intro pre he later _ hp
    rw [(h pre he).2] at hp
    cases hp

/-- Harmless acts may stand before contained ones and after them. -/
theorem Contained.append_harmless (h : Contained tools rs acts) (hmo : Harmless more) :
    Contained tools rs (acts ++ more) := by
  have hq : Contained tools 0 more := hmo.contained
  refine ⟨?_, ?_, ?_⟩
  · intro tool arguments result hm
    rcases mem_append.mp hm with hm | hm
    · exact h.permitted tool arguments result hm
    · exact hq.permitted tool arguments result hm
  · rw [countP_append]
    have := hq.bounded
    have := h.bounded
    omega
  · refine pairwise_append.mpr ⟨h.last, hq.last, ?_⟩
    intro pre _ later hl _
    exact hmo later hl

/-- A proposal may stand after harmless acts. -/
theorem Harmless.propose (h : Harmless acts) (tool : String) :
    Contained tools rs (acts ++ [.emit (.actionProposed tool)]) := by
  have hq : Contained tools 0 acts := h.contained
  refine ⟨?_, ?_, ?_⟩
  · intro other os result hm
    exact hq.permitted other os result (by simpa using hm)
  · have hc := hq.bounded
    simp only [countP_append, countP_singleton, AgentAct.isExecute, Bool.false_eq_true, if_false]
    omega
  · refine pairwise_append.mpr ⟨hq.last, pairwise_singleton _ _, ?_⟩
    intro pre he later _ hp
    rw [(h pre he).2] at hp
    cases hp

/-- A round that executes a permitted call goes before the rounds that are left. -/
theorem Contained.execute (h : Contained tools rs acts) {tool : String} {arguments : Value}
    (result : Except String Value) (hc : PermittedCall tools tool arguments)
    {before after : List AgentAct} (hpr : Harmless before) (haf : Harmless after) :
    Contained tools (rs + 1) (before ++ .execute tool arguments result :: after ++ acts) := by
  have hf : ∀ act ∈ before ++ .execute tool arguments result :: after,
      act.isProposal = false := by
    intro act ha
    rcases mem_append.mp ha with ha | ha
    · exact (hpr act ha).2
    · rcases mem_cons.mp ha with rfl | ha
      · rfl
      · exact (haf act ha).2
  refine ⟨?_, ?_, ?_⟩
  · intro other os result' hm
    rcases mem_append.mp hm with hm | hm
    · rcases mem_append.mp hm with hm | hm
      · exact absurd (hpr _ hm).1 (by simp [AgentAct.isExecute])
      · rcases mem_cons.mp hm with heq | hm
        · cases heq
          exact hc
        · exact absurd (haf _ hm).1 (by simp [AgentAct.isExecute])
    · exact h.permitted other os result' hm
  · have hco := h.bounded
    have hb : before.countP AgentAct.isExecute = 0 := by
      rw [countP_eq_zero]
      intro act ha
      simp [(hpr act ha).1]
    have hac : after.countP AgentAct.isExecute = 0 := by
      rw [countP_eq_zero]
      intro act ha
      simp [(haf act ha).1]
    simp only [countP_append, countP_cons, hb, hac, AgentAct.isExecute, if_true]
    omega
  · refine pairwise_append.mpr ⟨?_, h.last, ?_⟩
    · apply pairwise_of_forall_mem_list
      intro pre he later _ hp
      rw [hf pre he] at hp
      cases hp
    · intro pre he later _ hp
      rw [hf pre he] at hp
      cases hp

/-- The steps that a list of acts adds to the results. -/
def executedSteps (codec : AgentCodec) (acts : List AgentAct) : List AgentStepResult :=
  acts.filterMap (AgentAct.executed codec)

/-- The tools that a list of acts proposes. -/
def proposals (acts : List AgentAct) : List String := acts.filterMap AgentAct.proposed

theorem Harmless.not_execute (h : Harmless acts) {tool : String} {arguments : Value}
    {result : Except String Value} : .execute tool arguments result ∉ acts := by
  intro hm
  exact absurd (h _ hm).1 (by simp [AgentAct.isExecute])

theorem Harmless.executedSteps (codec : AgentCodec) (h : Harmless acts) :
    executedSteps codec acts = [] := by
  apply filterMap_eq_nil_iff.mpr
  intro act ha
  have he := (h act ha).1
  cases act with
  | execute tool arguments result => cases he
  | emit ev => rfl
  | chat req => rfl
  | checkpointStep step => rfl

theorem Harmless.proposals (h : Harmless acts) : proposals acts = [] := by
  apply filterMap_eq_nil_iff.mpr
  intro act ha
  have hp := (h act ha).2
  cases act with
  | emit ev =>
    cases ev with
    | actionProposed tool => cases hp
    | _ => rfl
  | _ => rfl

/-- One round of the loop: it ends there with no execution, or with a proposal, or with the
failed execution of a permitted call, or it executes one and goes on. -/
inductive Round (codec : AgentCodec) (tools : List AgentToolSpec) (state : LoopState)
    (rest : LoopState → List AgentAct × Except String LoopEnd) :
    List AgentAct × Except String LoopEnd → Prop where
  | failed (acts : List AgentAct) (error : String) (h : Harmless acts) :
      Round codec tools state rest (acts, .error error)
  | answered (acts : List AgentAct) (last : LoopEnd) (h : Harmless acts)
      (hresults : last.state.results = state.results) (hproposed : last.proposedAction = none) :
      Round codec tools state rest (acts, .ok last)
  | proposed (acts : List AgentAct) (last : LoopEnd) (tool : String) (arguments : Value)
      (h : Harmless acts) (hresults : last.state.results = state.results)
      (hproposed : last.proposedAction = some ⟨tool, arguments⟩) :
      Round codec tools state rest (acts ++ [.emit (.actionProposed tool)], .ok last)
  | broke (acts : List AgentAct) (tool : String) (arguments : Value) (error message : String)
      (h : Harmless acts) (hcall : PermittedCall tools tool arguments) :
      Round codec tools state rest (acts ++ [.execute tool arguments (.error error)], .error message)
  | executed (before after : List AgentAct) (tool : String) (arguments value : Value)
      (next : LoopState) (hbefore : Harmless before) (hafter : Harmless after)
      (hcall : PermittedCall tools tool arguments)
      (hresults : next.results =
        state.results ++ [{ tool, arguments, result := boundValue codec value }]) :
      Round codec tools state rest
        (before ++ .execute tool arguments (.ok value) :: after ++ (rest next).1, (rest next).2)

theorem round_planningLoop (codec : AgentCodec) (env : AgentEnvironment) (req : AgentRequest)
    (lims : LoopLimits) (rs : ℕ) (state : LoopState) :
    Round codec lims.tools state (planningLoop codec env req lims rs)
      (planningLoop codec env req lims (rs + 1) state) := by
  have hs : ∀ chat, Harmless
      [.emit (.planning (state.results.length + 1)), .chat chat] := by
    intro chat
    simp [Harmless, AgentAct.isExecute, AgentAct.isProposal]
  simp only [planningLoop]
  cases hca : env.chat state.chats (planningRequest codec req lims state.results) with
  | error error => exact .failed _ _ (hs _)
  | ok planning =>
    simp only
    cases hp : Planner.parseWithLimit codec planning.content lims.tools 1 with
    | error error => exact .failed _ _ (hs _)
    | ok plan =>
      simp only
      cases hst : plan.steps with
      | nil => exact .answered _ _ (hs _) rfl rfl
      | cons step steps =>
        obtain ⟨-, hch⟩ := Planner.parseWithLimit_spec hp
        obtain ⟨hk, ho, hu⟩ := hch step (by simp [hst])
        simp only
        cases ht : findTool lims.tools step.tool with
        | none => exact .failed _ _ (hs _)
        | some tool =>
          simp only
          cases hm : tool.mutating with
          | true => exact .proposed _ _ _ _ (hs _) rfl rfl
          | false =>
            have hc : PermittedCall lims.tools step.tool step.arguments := ⟨⟨tool, ht, hm⟩, ho, hu⟩
            simp only [Bool.false_eq_true, if_false]
            cases hr : env.execute state.executions step.tool step.arguments with
            | error error =>
              exact .broke [.emit _, .chat _, .emit (.toolStarted _ _)] _ _ error _
                (by simp [Harmless, AgentAct.isExecute, AgentAct.isProposal]) hc
            | ok v =>
              exact .executed [.emit _, .chat _, .emit (.toolStarted _ _)]
                [.checkpointStep _, .emit (.toolCompleted _ _)] _ _ v _
                (by simp [Harmless, AgentAct.isExecute, AgentAct.isProposal])
                (by simp [Harmless, AgentAct.isExecute, AgentAct.isProposal]) hc rfl

/-- What the rounds of the loop do, whatever the provider replies. -/
theorem planningLoop_contained (codec : AgentCodec) (env : AgentEnvironment)
    (req : AgentRequest) (lims : LoopLimits) (rs : ℕ) (state : LoopState) :
    Contained lims.tools rs (planningLoop codec env req lims rs state).1 := by
  induction rs generalizing state with
  | zero => exact ⟨by simp [planningLoop], by simp [planningLoop], by simp [planningLoop]⟩
  | succ rs ih =>
    have hr := round_planningLoop codec env req lims rs state
    generalize planningLoop codec env req lims (rs + 1) state = outcome at hr ⊢
    cases hr with
    | failed acts err h => exact h.contained
    | answered acts last h hre hp => exact h.contained
    | proposed acts last tool arguments h hre hp => exact h.propose tool
    | broke acts tool arguments err msg h hc =>
      have hn : Harmless [] := by simp [Harmless]
      have hni : Contained lims.tools rs [] := hn.contained
      simpa using hni.execute (.error err) hc h hn
    | executed pre after tool arguments v next hpr ha hc hre =>
      exact (ih next).execute (.ok v) hc hpr ha

/-- The results and the proposal that the loop ends with are those of its acts. -/
theorem planningLoop_results {last : LoopEnd}
    (h : (planningLoop codec env req lims rs state).2 = .ok last) :
    last.state.results = state.results ++
        executedSteps codec (planningLoop codec env req lims rs state).1 ∧
      proposals (planningLoop codec env req lims rs state).1 =
        last.proposedAction.toList.map AgentProposedAction.tool ∧
      ∀ tool arguments result, .execute tool arguments result ∈
          (planningLoop codec env req lims rs state).1 → result.isOk := by
  induction rs generalizing state with
  | zero =>
    obtain rfl := ok.inj h
    simp [planningLoop, executedSteps, proposals]
  | succ rs ih =>
    have hr := round_planningLoop codec env req lims rs state
    generalize planningLoop codec env req lims (rs + 1) state = outcome at hr h ⊢
    cases hr with
    | failed acts err ha => cases h
    | answered acts last' ha hre hp =>
      obtain rfl := ok.inj h
      rw [ha.executedSteps codec, ha.proposals, hp]
      refine ⟨by simp [hre], rfl, ?_⟩
      intro tool arguments result hm
      exact absurd hm ha.not_execute
    | proposed acts last' tool arguments ha hre hp =>
      obtain rfl := ok.inj h
      have hs : executedSteps codec (acts ++ [.emit (.actionProposed tool)]) = [] := by
        rw [executedSteps, filterMap_append, ← executedSteps, ha.executedSteps codec]
        rfl
      have ht : proposals (acts ++ [.emit (.actionProposed tool)]) = [tool] := by
        rw [proposals, filterMap_append, ← proposals, ha.proposals]
        rfl
      refine ⟨by simp [hs, hre], by rw [ht, hp]; rfl, ?_⟩
      intro other os result hm
      exact absurd (show _ ∈ acts by simpa using hm) ha.not_execute
    | broke acts tool arguments err msg ha hc => cases h
    | executed pre after tool arguments v next hpr haf hc hre =>
      obtain ⟨hrs, hp, hok⟩ := ih h
      have hs : executedSteps codec (pre ++ .execute tool arguments (.ok v) :: after ++
            (planningLoop codec env req lims rs next).1) =
          { tool, arguments, result := boundValue codec v } ::
            executedSteps codec (planningLoop codec env req lims rs next).1 := by
        have hn := hpr.executedSteps codec
        have hn' := haf.executedSteps codec
        simp only [executedSteps] at hn hn' ⊢
        simp [hn, hn', AgentAct.executed]
      have ht : proposals (pre ++ .execute tool arguments (.ok v) :: after ++
            (planningLoop codec env req lims rs next).1) =
          proposals (planningLoop codec env req lims rs next).1 := by
        have hn := hpr.proposals
        have hn' := haf.proposals
        simp only [proposals] at hn hn' ⊢
        rw [filterMap_append, filterMap_append, hn, filterMap_cons_none rfl, hn']
        rfl
      refine ⟨?_, ht.trans hp, ?_⟩
      · rw [hs, hrs, hre, append_assoc]
        rfl
      intro other os result hm
      rcases mem_append.mp hm with hm | hm
      · rcases mem_append.mp hm with hm | hm
        · exact absurd hm hpr.not_execute
        · rcases mem_cons.mp hm with heq | hm
          · cases heq
            rfl
          · exact absurd hm haf.not_execute
      · exact hok other os result hm

/-! The whole run. -/

theorem synthesize_acts (codec : AgentCodec) (env : AgentEnvironment) (req : AgentRequest)
    (lims : LoopLimits) (last : LoopEnd) :
    Harmless (synthesize codec env req lims last).1 := by
  unfold synthesize
  cases last.answer with
  | some ans => simp [Harmless]
  | none => simp [Harmless, AgentAct.isExecute, AgentAct.isProposal]

theorem synthesize_response {resp : AgentResponse}
    (h : (synthesize codec env req lims last).2 = .ok resp) :
    resp.steps = last.state.results ∧ resp.proposedAction = last.proposedAction := by
  unfold synthesize at h
  cases ha : last.answer with
  | some ans =>
    rw [ha] at h
    obtain rfl := ok.inj h
    refine ⟨rfl, ?_⟩
    unfold LoopEnd.answer at ha
    split at ha
    case isTrue hn => exact (Option.isNone_iff_eq_none.mp hn).symm
    case isFalse => cases ha
  | none =>
    rw [ha] at h
    simp only at h
    split at h
    · cases h
    · obtain rfl := ok.inj h
      exact ⟨rfl, rfl⟩

end FocalDesk
