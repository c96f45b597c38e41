import FocalDesk.Workflow.Supervisor

/-! Workflow runs that have ended stay as they are. -/
namespace FocalDesk
open Library Option Std.ExtTreeMap

variable {encode : WorkflowArtifact → String} {definition : WorkflowDefinition}
  {s t : WorkflowService} {e : WorkflowEvent} {run : WorkflowRunStatus}
  {upd : WorkflowRunStatus → WorkflowRunStatus} {state : WorkflowRunState}
  {started : List ChildStart} {nodeId msg agentRunId : String}

/-- No node is running. -/
def WorkflowRunStatus.Quiet (run : WorkflowRunStatus) : Prop :=
  ∀ (nodeId : String) (node : WorkflowNodeStatus), run.nodes[nodeId]? = some node →
    node.state ≠ .running

theorem WorkflowRunStatus.quiet_iff :
    run.Quiet ↔ ∀ e ∈ run.nodes.toList, e.2.state ≠ .running := by
  simp only [Quiet, Prod.forall, mem_toList_iff_getElem?_eq_some]

instance (run : WorkflowRunStatus) : Decidable run.Quiet :=
  decidable_of_iff _ (WorkflowRunStatus.quiet_iff).symm

namespace WorkflowService

/-- A step that writes or starts on account of a snapshot finds that the run has not ended
since, and a failure finds no node running. -/
def InTime (service : WorkflowService) : WorkflowEvent → Prop
  | .supervise around =>
    match service.stage with
    | .finishing | .marking _ _ _ _ => ∀ run ∈ service.run, run.state.isTerminal = false
    | .starting _ (_ :: _) =>
      around.startAgent.isOk = true → ∃ run ∈ service.run, run.state.isTerminal = false
    | .failing _ => ∀ run ∈ service.run, run.state.isTerminal = false → run.Quiet
    | _ => True
  | _ => True

instance (service : WorkflowService) : (e : WorkflowEvent) → Decidable (service.InTime e)
  | .supervise _ =>
    match service with
    | ⟨run, .finishing, _, _⟩ | ⟨run, .marking _ _ _ _, _, _⟩ =>
      inferInstanceAs (Decidable (∀ active ∈ run, active.state.isTerminal = false))
    | ⟨run, .failing _, _, _⟩ => inferInstanceAs
      (Decidable (∀ failed ∈ run, failed.state.isTerminal = false → failed.Quiet))
    | ⟨run, .starting _ (_ :: _), _, _⟩ => inferInstanceAs
      (Decidable (_ = true → ∃ active ∈ run, active.state.isTerminal = false))
    | ⟨_, .starting _ [], _, _⟩ | ⟨_, .reading, _, _⟩ | ⟨_, .inspecting _, _, _⟩
    | ⟨_, .failingNode _ _, _, _⟩ | ⟨_, .completing _ _ _, _, _⟩ | ⟨_, .checking, _, _⟩
    | ⟨_, .purging, _, _⟩ | ⟨_, .returned, _, _⟩ => isTrue trivial
  | .cancelWorkflow | .setWorkflowPaused _ | .evict => isTrue trivial

/-- A run that has ended, or is about to complete, has no running node. -/
structure Tidy (service : WorkflowService) : Prop where
  ended : ∀ run ∈ service.run, run.state.isTerminal = true → run.Quiet
  finishing : service.stage = .finishing → ∀ run ∈ service.run, run.Quiet

/-- The run ended in this state, after these starts. -/
def EndedAs (state : WorkflowRunState) (started : List ChildStart) (service : WorkflowService) :
    Prop :=
  service.started = started ∧ ∀ run ∈ service.run, run.state = state

end WorkflowService

namespace WorkflowRunStatus

/-! Changes of nodes. -/

theorem Quiet.updateNode {state : WorkflowNodeState} {error : Option String}
    {artifact : Option WorkflowArtifact} (h : run.Quiet) (hs : state ≠ .running) :
    (run.updateNode nodeId state error artifact).Quiet := by
  have hno : (run.updateNode nodeId state error artifact).nodes =
      run.nodes.modify nodeId fun node => { node with state, error } := by
    cases artifact <;> rfl
  intro id node hn
  rw [hno, getElem?_modify] at hn
  split at hn
  · obtain ⟨node', -, rfl⟩ := map_eq_some_iff.mp hn
    exact hs
  · exact h id node hn

theorem updateNode_state {nodeState : WorkflowNodeState} {error : Option String}
    {artifact : Option WorkflowArtifact} :
    (run.updateNode nodeId nodeState error artifact).state = run.state := by
  cases artifact <;> rfl

theorem quiet_cancel : run.cancel.1.Quiet := by
  intro id node hn
  simp only [cancel, getElem?_map] at hn
  obtain ⟨node', -, rfl⟩ := map_eq_some_iff.mp hn
  split
  · nofun
  case isFalse h => exact h

theorem fail_of_terminal (h : run.state.isTerminal) : run.fail msg = run := by
  rw [fail, if_pos h]

end WorkflowRunStatus

namespace WorkflowService

/-! Changes of the run. -/

theorem EndedAs.write (h : s.EndedAs state started)
    (hu : ∀ run ∈ s.run, (upd run).state = run.state) :
    (s.write upd).EndedAs state started := by
  refine ⟨h.1, fun run hr => ?_⟩
  obtain ⟨run', hr', rfl⟩ := map_eq_some_iff.mp hr
  exact (hu run' hr').trans (h.2 run' hr')

theorem quiet_of_checkStage (h : checkStage definition run = .finishing) : run.Quiet := by
  unfold checkStage at h
  split at h
  · cases h
  · split at h
    case isTrue ha =>
      intro id node hn
      have hm := mem_toList_iff_getElem?_eq_some.mpr hn
      have hc : node.state = .completed := of_decide_eq_true (List.all_eq_true.mp ha _ hm)
      rw [hc]
      nofun
    case isFalse => cases h

/-! Steps. -/

theorem Tidy.write {stg : SupervisorStage} (h : s.Tidy) (hs : stg ≠ .finishing)
    (hu : ∀ run ∈ s.run, (run.state.isTerminal → run.Quiet) →
      (upd run).state.isTerminal → (upd run).Quiet) :
    ((s.write upd).goTo stg).Tidy := by
  refine ⟨fun run hr ht => ?_, fun hf => absurd hf hs⟩
  obtain ⟨run', hr', rfl⟩ := map_eq_some_iff.mp hr
  exact hu run' hr' (h.ended run' hr') ht

theorem Tidy.goTo {stg : SupervisorStage} (h : s.Tidy)
    (hs : stg = .finishing → ∀ run ∈ s.run, run.Quiet) : (s.goTo stg).Tidy :=
  ⟨h.ended, hs⟩

theorem readStage_ne_finishing {now : ℕ} : readStage now run ≠ .finishing := by
  unfold readStage
  split
  · nofun
  · split
    · nofun
    · split <;> nofun

theorem inspectStage_ne_finishing {agentRunStatus : String → Option AgentRunStatus}
    {node : WorkflowNodeStatus} {nodes : List WorkflowNodeStatus} :
    inspectStage agentRunStatus node nodes ≠ .finishing := by
  unfold inspectStage
  split
  · nofun
  · split
    · nofun
    · split
      · nofun
      · split <;> nofun

/-- The task takes a tidy run to a tidy run, as long as it is in time. -/
theorem supervise_tidy {env : Surroundings} (hok : s.InTime (.supervise env)) (hs : s.Tidy)
    : (s.supervise encode definition env).Tidy := by
  have hq : s.stage = .finishing → ∀ run ∈ s.run, run.Quiet := hs.finishing
  unfold supervise
  unfold InTime at hok
  split
  case h_1 =>
    split
    · exact hs.goTo nofun
    · exact hs.goTo fun h => absurd h readStage_ne_finishing
  case h_2 => exact hs.goTo nofun
  case h_3 => exact hs.goTo fun h => absurd h inspectStage_ne_finishing
  case h_4 => exact hs.write nofun fun run _ hr ht =>
    (hr (WorkflowRunStatus.updateNode_state ▸ ht)).updateNode nofun
  case h_5 => exact hs.write nofun fun run _ hr ht =>
    (hr (WorkflowRunStatus.updateNode_state ▸ ht)).updateNode nofun
  case h_6 =>
    split
    · exact hs.goTo nofun
    case h_2 run hr =>
      refine hs.goTo fun h run' hr' => ?_
      obtain rfl : run = run' := some.inj (hr.symm.trans hr')
      exact quiet_of_checkStage h
  case h_7 hst => exact hs.write nofun fun run hr _ _ => hq hst run hr
  case h_8 => exact hs.goTo nofun
  case h_9 =>
    split
    · exact ⟨hs.ended, nofun⟩
    · exact hs.goTo nofun
  case h_10 hst =>
    simp only [hst] at hok
    refine hs.write nofun fun run hr _ ht => ?_
    rw [WorkflowRunStatus.markRunning, hok run hr] at ht
    cases ht
  case h_11 hst =>
    simp only [hst] at hok
    refine hs.write nofun fun run hr he _ => ?_
    unfold WorkflowRunStatus.fail
    split
    case isTrue ht => exact he ht
    case isFalse ht => exact hok run hr (by simpa using ht)
  case h_12 => exact ⟨hs.ended, nofun⟩
  case h_13 => exact hs

theorem step_tidy (h : s.step encode definition e = some t) (hok : s.InTime e) (hs : s.Tidy) :
    t.Tidy := by
  cases e with
  | supervise env =>
    cases h
    exact supervise_tidy hok hs
  | cancelWorkflow =>
    cases h
    unfold cancelWorkflow
    split
    · exact hs
    case h_2 run _ =>
      split
      · exact hs
      · have hq (run' : WorkflowRunStatus) (hr' : some run.cancel.1 = some run') :
            run'.Quiet := some.inj hr' ▸ WorkflowRunStatus.quiet_cancel
        exact ⟨fun run' hr' _ => hq run' hr', fun _ run' hr' => hq run' hr'⟩
  | setWorkflowPaused paused =>
    cases h
    have hsa (run' : WorkflowRunStatus) (hr' : run' ∈ (s.setWorkflowPaused paused).run) :
        ∃ run ∈ s.run, run'.nodes = run.nodes ∧ (run'.state.isTerminal → run.state.isTerminal) := by
      obtain ⟨run, hr, rfl⟩ := map_eq_some_iff.mp hr'
      refine ⟨run, hr, ?_⟩
      split
      · exact ⟨rfl, id⟩
      · cases paused <;> exact ⟨rfl, nofun⟩
    refine ⟨fun run' hr' ht => ?_, fun hst run' hr' => ?_⟩
    · obtain ⟨run, hr, hn, he⟩ := hsa run' hr'
      rw [WorkflowRunStatus.Quiet, hn]
      exact hs.ended run hr (he ht)
    · obtain ⟨run, hr, hn, -⟩ := hsa run' hr'
      rw [WorkflowRunStatus.Quiet, hn]
      exact hs.finishing hst run hr
  | evict =>
    cases h
    unfold evict
    split
    · exact ⟨nofun, nofun⟩
    · exact hs

/-! Runs that have ended. -/

theorem supervise_ended {env : Surroundings} (hok : s.InTime (.supervise env))
    (ht : state.isTerminal) (hs : s.EndedAs state started) :
    (s.supervise encode definition env).EndedAs state started := by
  have he (run : WorkflowRunStatus) (hr : run ∈ s.run) :
      run.state.isTerminal := by rw [hs.2 run hr, ht]
  unfold supervise
  unfold InTime at hok
  split
  case h_1 => split <;> exact hs
  case h_2 | h_3 | h_8 | h_12 | h_13 => exact hs
  case h_4 | h_5 => exact hs.write fun _ _ => WorkflowRunStatus.updateNode_state
  case h_6 => split <;> exact hs
  case h_7 hst | h_10 hst =>
    simp only [hst] at hok
    refine hs.write fun run hr => ?_
    have hru := hok run hr
    rw [he run hr] at hru
    cases hru
  case h_9 hst =>
    split
    case h_1 hsa =>
      simp only [hst] at hok
      obtain ⟨run, hr, hru⟩ := hok (by rw [hsa]; rfl)
      rw [he run hr] at hru
      cases hru
    case h_2 => exact hs
  case h_11 =>
    refine hs.write fun run hr => ?_
    rw [WorkflowRunStatus.fail_of_terminal (he run hr)]

theorem step_ended (h : s.step encode definition e = some t) (hok : s.InTime e)
    (ht : state.isTerminal) (hs : s.EndedAs state started) :
    t.EndedAs state started := by
  have he (run : WorkflowRunStatus) (hr : run ∈ s.run) : run.state.isTerminal := by
    rw [hs.2 run hr, ht]
  cases e with
  | supervise env =>
    cases h
    exact supervise_ended hok ht hs
  | cancelWorkflow =>
    cases h
    unfold cancelWorkflow
    split
    · exact hs
    case h_2 run hr =>
      rw [if_pos (he run hr)]
      exact hs
  | setWorkflowPaused paused =>
    cases h
    refine hs.write fun run hr => ?_
    rw [if_pos (he run hr)]
  | evict =>
    cases h
    unfold evict
    split
    · exact ⟨hs.1, nofun⟩
    · exact hs

theorem start_tidy (h : run.state = .running) : (start run).Tidy := by
  refine ⟨fun run' hr' ht => ?_, nofun⟩
  obtain rfl : run = run' := some.inj hr'
  rw [h] at ht
  cases ht

/-- Once a run has ended, it stays as it ended, no child starts and no node is running. -/
theorem workflow_absorbing (encode : WorkflowArtifact → String) (definition : WorkflowDefinition)
    (initial : WorkflowRunStatus) (events later : List WorkflowEvent) (s t : WorkflowService)
    (ended : WorkflowRunStatus) (hinitial : initial.state = .running)
    (hok : Meets (step encode definition) InTime (start initial) (events ++ later))
    (hs : Library.run (step encode definition) (start initial) events = some s)
    (hended : s.run = some ended) (hterminal : ended.state.isTerminal = true)
    (ht : Library.run (step encode definition) s later = some t) :
    t.started = s.started ∧ ∀ run ∈ t.run, run.state = ended.state ∧ run.Quiet := by
  obtain ⟨hb, ha⟩ := meets_append hok hs
  have hti : s.Tidy := run_invariant_of_meets step_tidy hb hs (start_tidy hinitial)
  have hla : t.Tidy := run_invariant_of_meets step_tidy ha ht hti
  have hsa : s.EndedAs ended.state s.started := by
    refine ⟨rfl, fun run hr => ?_⟩
    rw [some.inj (hended.symm.trans hr)]
  have hl : t.EndedAs ended.state s.started :=
    run_invariant_of_meets (fun h hok => step_ended h hok hterminal) ha ht hsa
  refine ⟨hl.1, fun run hr => ⟨hl.2 run hr, hla.ended run hr ?_⟩⟩
  rw [hl.2 run hr, hterminal]

/-! A workflow of one node. -/

def briefing : WorkflowDefinition :=
  { manifestVersion := workflowManifestVersion, id := "briefing", name := "Briefing",
    description := "", nodes := [⟨"inspect", "desktop", "Inspect the session.", []⟩],
    maxParallelism := 1, timeoutSeconds := 300, maxTotalTokens := 8000,
    capabilityCeiling := none, builtIn := false }

def briefingRun : WorkflowRunStatus := initialRun briefing ∅ "run" 1000

def noArtifacts (_ : WorkflowArtifact) : String := ""

/-- A child run in a state, with an answer. -/
def childIn (state : AgentRunState) : AgentRunStatus :=
  { runId := "child", agentId := "desktop", state, objectivePreview := "", provider := "openai",
    trigger := none, model := none, createdAtUnix := 1000, startedAtUnix := none,
    completedAtUnix := none, deadlineAtUnix := 1120, maxToolSteps := 4, maxContextChars := 48000,
    maxOutputTokens := 1024, completedToolSteps := 0, observations := [], events := [],
    error := none,
    result := some { runId := "child", provider := "openai", model := none, answer := "Fine.",
                     usage := none, steps := [], proposedAction := none, confirmation := none } }

def beside (state : AgentRunState) : WorkflowEvent :=
  .supervise { unixNow := 1001, agentRunStatus := fun _ => some (childIn state),
               startAgent := .ok "child" }

/-- The task starts the node, sees it complete and is about to write that the run completed. -/
def untilFinishing : List WorkflowEvent := List.replicate 11 (beside .completed)

theorem workflow_absorbing_sample : ∃ s t ended,
    Library.run (step noArtifacts briefing) (start briefingRun)
        (untilFinishing ++ [beside .completed]) = some s ∧
      s.run = some ended ∧ ended.state = .completed ∧
      Library.run (step noArtifacts briefing) s
        [.cancelWorkflow, beside .completed, .setWorkflowPaused true] = some t ∧
      t.started = s.started ∧ ∀ run ∈ t.run, run.state = ended.state ∧ run.Quiet := by
  obtain ⟨s, hs, he⟩ : ∃ s, Library.run (step noArtifacts briefing) (start briefingRun)
      (untilFinishing ++ [beside .completed]) = some s ∧
        decide (s.run.map WorkflowRunStatus.state = some .completed) = true :=
    exists_run_of_any (by decide +kernel)
  obtain ⟨ended, hr, hc⟩ := map_eq_some_iff.mp (of_decide_eq_true he)
  obtain ⟨t, ht, -⟩ : ∃ t, Library.run (step noArtifacts briefing) (start briefingRun)
      (untilFinishing ++ [beside .completed] ++
        [.cancelWorkflow, beside .completed, .setWorkflowPaused true]) = some t ∧ true = true :=
    exists_run_of_any (by decide +kernel)
  obtain ⟨s', hs', ht⟩ := run_append_eq_some.mp ht
  obtain rfl : s = s' := some.inj (hs.symm.trans hs')
  refine ⟨s, t, ended, hs, hr, hc, ht, ?_⟩
  exact workflow_absorbing noArtifacts briefing briefingRun _ _ s t ended rfl
    (by decide +kernel) hs hr (by rw [hc]; rfl) ht

/-- A cancellation between the last look at a run and the write of its completion is undone. -/
theorem cancelled_run_completes : ∃ s t,
    Library.run (step noArtifacts briefing) (start briefingRun)
        (untilFinishing ++ [.cancelWorkflow]) = some s ∧
      s.run.map WorkflowRunStatus.state = some .cancelled ∧
      Library.run (step noArtifacts briefing) s [beside .completed] = some t ∧
      t.run.map WorkflowRunStatus.state = some .completed := by
  obtain ⟨t, ht, hc⟩ : ∃ t, Library.run (step noArtifacts briefing) (start briefingRun)
      (untilFinishing ++ [.cancelWorkflow] ++ [beside .completed]) = some t ∧
        decide (t.run.map WorkflowRunStatus.state = some .completed) = true :=
    exists_run_of_any (by decide +kernel)
  obtain ⟨s, hs, hl⟩ := run_append_eq_some.mp ht
  obtain ⟨s', hs', hca⟩ : ∃ s, Library.run (step noArtifacts briefing) (start briefingRun)
      (untilFinishing ++ [.cancelWorkflow]) = some s ∧
        decide (s.run.map WorkflowRunStatus.state = some .cancelled) = true :=
    exists_run_of_any (by decide +kernel)
  obtain rfl : s = s' := some.inj (hs.symm.trans hs')
  exact ⟨s, t, hs, of_decide_eq_true hca, hl, of_decide_eq_true hc⟩

end WorkflowService

end FocalDesk
