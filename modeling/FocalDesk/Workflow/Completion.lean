import FocalDesk.Workflow.Absorption
import FocalDesk.Workflow.Schedule
import FocalDesk.Capability.Meet

/-! A workflow that nobody interrupts completes when its children do. -/
namespace FocalDesk
open Library WorkflowRunStatus Option Std.ExtTreeMap Nat

variable {encode : WorkflowArtifact → String} {definition : WorkflowDefinition}
  {checkpoint : BTreeMap String WorkflowArtifact} {run : WorkflowRunStatus}
  {std : List ChildStart} {s : WorkflowService} {around : Surroundings}
  {arounds : ℕ → Surroundings} {states : ℕ → WorkflowService} {n : ℕ}

def SupervisorStage.Going : SupervisorStage → Prop
  | .failingNode _ _ | .failing _ | .purging | .returned => False
  | _ => True

/-- How many steps the task may take before it reads the run again, if it starts no node and
sees none complete. -/
def SupervisorStage.rank : SupervisorStage → ℕ
  | .inspecting statuses => statuses.length + 3
  | .checking | .marking _ _ _ _ => 2
  | .finishing | .starting _ _ => 1
  | _ => 0

namespace WorkflowService

/-- What one step of the task may see when nothing goes wrong: a child can be started, no child
ended otherwise than completed, and neither the deadline nor the budget is passed. -/
structure Kind (around : Surroundings) (s : WorkflowService) : Prop where
  startable : around.startAgent.isOk = true
  inTime : ∀ run ∈ s.run, around.unixNow < run.deadlineAtUnix
  inBudget : ∀ run ∈ s.run, run.totalTokens ≤ run.maxTotalTokens
  successful : ∀ start ∈ s.started, ∀ child ∈ around.agentRunStatus start.agentRunId,
    child.state.isTerminal = true → child.state = .completed

/-- The child has completed and can be looked up. -/
def HasResult (around : Surroundings) (start : ChildStart) : Prop :=
  ∃ child, around.agentRunStatus start.agentRunId = some child ∧ child.state = .completed ∧
    child.result.isSome = true

/-- Nothing goes wrong, and every child that was started completes in the end. -/
structure Favourable (arounds : ℕ → Surroundings) (states : ℕ → WorkflowService) : Prop where
  kind : ∀ n, Kind (arounds n) (states n)
  completes : ∀ n, ∀ start ∈ (states n).started, ∃ m, ∀ k, m ≤ k → HasResult (arounds k) start

/-- The task goes on, or has returned from a run that completed. -/
structure Underway (s : WorkflowService) : Prop where
  unfailed : ∀ run ∈ s.run, ∀ id, run.stateOf id ≠ some .failed
  either : (s.stage.Going ∧ ∀ run ∈ s.run, run.state = .running) ∨
    (s.stage = .returned ∧ ∀ run ∈ s.run, run.state = .completed ∧
      ∀ id ∈ run.nodes, run.stateOf id = some .completed)

/-- The nodes that were not started and those that have not completed. -/
def workLeft (definition : WorkflowDefinition) (s : WorkflowService) : ℕ :=
  definition.nodes.length - s.started.length + s.run.elim 0 (countUnfinished definition)

/-! The task goes on. -/

theorem Underway.goTo {stg : SupervisorStage} (h : s.Underway) (hg : s.stage.Going) (hs : stg.Going)
    : (s.goTo stg).Underway := by
  refine ⟨h.unfailed, ?_⟩
  rcases h.either with ⟨-, hr⟩ | ⟨hre, -⟩
  · exact .inl ⟨hs, hr⟩
  · rw [hre] at hg
    exact hg.elim

theorem Underway.running (h : s.Underway) (hg : s.stage.Going) :
    ∀ run ∈ s.run, run.state = .running := by
  rcases h.either with ⟨-, hr⟩ | ⟨hre, -⟩
  · exact hr
  · rw [hre] at hg
    exact hg.elim

theorem readStage_eq (h : Kind around s) (hr : s.run = some run) (hs : run.state = .running) :
    readStage around.unixNow run = .inspecting run.runningNodes := by
  have ht := h.inTime run hr
  rw [readStage, hs, if_neg (by simp [WorkflowRunState.isTerminal]), if_neg (by omega),
    if_neg (by simp)]

theorem inspectStage_of_hasResult {stat : WorkflowNodeStatus} {start : ChildStart}
    (statuses : List WorkflowNodeStatus) (h : HasResult around start)
    (ha : stat.agentRunId = some start.agentRunId) :
    ∃ artifact, inspectStage around.agentRunStatus stat statuses =
      .completing stat.nodeId artifact statuses := by
  obtain ⟨child, hc, hco, hr⟩ := h
  obtain ⟨res, hr⟩ := isSome_iff_exists.mp hr
  refine ⟨resultArtifact stat.nodeId res, ?_⟩
  rw [inspectStage, ha, bind_some, hc]
  simp [hco, hr, AgentRunState.isTerminal]

theorem going_inspectStage {stat : WorkflowNodeStatus} {statuses : List WorkflowNodeStatus}
    (h : Kind around s) (hr : run.Recorded definition checkpoint s.started)
    (hw : run.Waiting (stat :: statuses)) :
    (inspectStage around.agentRunStatus stat statuses).Going := by
  obtain ⟨hst, hru⟩ := hw.current stat (List.mem_cons_self ..)
  obtain ⟨start, hs, ha⟩ := hr.watched _ stat hst hru
  unfold inspectStage
  rw [ha, bind_some]
  split
  · trivial
  case h_2 child hc =>
    split
    · trivial
    case isFalse ht =>
      have hco := h.successful start hs child hc (by simpa using ht)
      rw [if_neg (not_not.mpr hco)]
      split <;> trivial

theorem checkStage_eq (definition : WorkflowDefinition) (h : Kind around s) (hr : s.run = some run) :
    (checkStage definition run = .finishing) ∨
      (checkStage definition run = .starting run.artifacts (runnable definition run) ∧
        ∃ id ∈ run.nodes, run.stateOf id ≠ some .completed) := by
  have hb := h.inBudget run hr
  rw [checkStage, if_neg (by omega)]
  split
  · exact .inl rfl
  case isFalse ho =>
    refine .inr ⟨rfl, ?_⟩
    simp only [Bool.not_eq_true, List.all_eq_false, decide_eq_true_eq] at ho
    obtain ⟨⟨id, stat⟩, he, ho⟩ := ho
    have hs := mem_toList_iff_getElem?_eq_some.mp he
    refine ⟨id, mem_of_getElem? hs, ?_⟩
    rw [stateOf, hs]
    exact fun hc => ho (some.inj hc)

theorem Underway.write {upd : WorkflowRunStatus → WorkflowRunStatus} {stg : SupervisorStage}
    (h : s.Underway) (hg : s.stage.Going) (hs : stg.Going)
    (hst : ∀ run, (upd run).state = run.state)
    (hu : ∀ run ∈ s.run, ∀ id, (upd run).stateOf id ≠ some .failed) :
    ((s.write upd).goTo stg).Underway := by
  refine ⟨fun run hr => ?_, .inl ⟨hs, fun run hr => ?_⟩⟩
  · obtain ⟨run', hr', rfl⟩ := map_eq_some_iff.mp hr
    exact hu run' hr'
  · obtain ⟨run', hr', rfl⟩ := map_eq_some_iff.mp hr
    rw [hst]
    exact h.running hg run' hr'

theorem stateOf_modify (nid : String) {run' : WorkflowRunStatus} {state : WorkflowNodeState}
    {f : WorkflowNodeStatus → WorkflowNodeStatus}
    (hno : run'.nodes = run.nodes.modify nid f) (hf : ∀ stat, (f stat).state = state)
    (id : String) (hid : run'.stateOf id ≠ some state) : run'.stateOf id = run.stateOf id := by
  rw [stateOf, hno, getElem?_modify] at hid ⊢
  split
  case isTrue hs =>
    rw [if_pos hs] at hid
    cases hn : run.nodes[nid]? with
    | none => rw [stateOf, ← Std.LawfulEqCmp.eq_of_compare hs, hn]; rfl
    | some stat =>
      rw [hn] at hid
      exact absurd (congrArg some (hf stat)) hid
  case isFalse => rfl

/-- The task stays on its way when nothing goes wrong. -/
theorem supervise_underway (hki : Kind around s) (hs : s.Scheduled definition checkpoint run)
    (h : s.Underway) : (s.supervise encode definition around).Underway := by
  have hk := hs.knows
  have hp := hs.present
  unfold supervise
  split
  case h_1 hst =>
    rw [hp]
    have hg : s.stage.Going := hst ▸ trivial
    have hre := readStage_eq hki hp (h.running hg run hp)
    exact h.goTo hg (hre ▸ trivial)
  case h_2 hst => exact h.goTo (hst ▸ trivial) trivial
  case h_3 hst =>
    rw [hst] at hk
    exact h.goTo (hst ▸ trivial) (going_inspectStage hki hs.recorded hk)
  case h_4 hst | h_11 hst | h_12 hst =>
    rcases h.either with ⟨hg, -⟩ | ⟨hrt, -⟩
    · rw [hst] at hg
      exact hg.elim
    · cases hst.symm.trans hrt
  case h_5 nid artifact statuses hst =>
    refine h.write (hst ▸ trivial) trivial (fun _ => updateNode_state) fun run hr id hf => ?_
    refine h.unfailed run hr id ?_
    rw [← hf]
    refine (stateOf_modify nid updateNode_nodes (fun _ => rfl) id ?_).symm
    rw [hf]
    simp
  case h_6 hst =>
    rw [hp]
    refine h.goTo (hst ▸ trivial) ?_
    rcases checkStage_eq definition hki hp with heq | ⟨heq, -⟩ <;> exact heq ▸ trivial
  case h_7 hst =>
    rw [hst] at hk
    refine ⟨fun run' hr' id => ?_, .inr ⟨rfl, fun run' hr' => ?_⟩⟩
    · obtain ⟨pre, hpr, rfl⟩ := map_eq_some_iff.mp hr'
      exact h.unfailed pre hpr id
    · obtain ⟨pre, hpr, rfl⟩ := map_eq_some_iff.mp hr'
      obtain rfl : run = pre := some.inj (hp.symm.trans hpr)
      exact ⟨rfl, hk⟩
  case h_8 hst => exact h.goTo (hst ▸ trivial) trivial
  case h_9 hst =>
    split
    · exact ⟨h.unfailed, .inl ⟨trivial, h.running (hst ▸ trivial)⟩⟩
    case h_2 error hsa =>
      have hok := hki.startable
      rw [hsa] at hok
      cases hok
  case h_10 artifacts node agentRunId nodes hst =>
    refine h.write (hst ▸ trivial) trivial (fun _ => rfl) fun run hr id hf => ?_
    refine h.unfailed run hr id ?_
    rw [← hf]
    refine (stateOf_modify node.id
      (f := fun stat => { stat with state := .running, agentRunId := some agentRunId })
      rfl (fun _ => rfl) id ?_).symm
    rw [hf]
    simp
  case h_13 => exact h

/-! The work that is left. -/

theorem started_supervise (encode : WorkflowArtifact → String) (definition : WorkflowDefinition)
    (around : Surroundings) (s : WorkflowService) :
    (s.supervise encode definition around).started = s.started ∨
      ∃ artifacts node nodes start, s.stage = .starting artifacts (node :: nodes) ∧
        around.startAgent.isOk ∧
        (s.supervise encode definition around).started = s.started ++ [start] := by
  unfold supervise
  split
  case h_1 | h_6 => split <;> exact .inl rfl
  case h_9 hs =>
    split
    case h_1 hst => exact .inr ⟨_, _, _, _, hs, by rw [hst]; rfl, rfl⟩
    case h_2 => exact .inl rfl
  all_goals exact .inl rfl

theorem Scheduled.length_started_le (h : s.Scheduled definition checkpoint run) :
    s.started.length ≤ definition.nodes.length := by
  have hs : s.started.map ChildStart.nodeId ⊆ definition.nodes.map WorkflowNode.id :=
    fun id hid => (h.recorded.listed id).mp (h.recorded.starts id hid).1
  simpa using (List.subperm_of_subset h.recorded.once hs).length_le

theorem workLeft_eq (h : s.Scheduled definition checkpoint run) :
    s.workLeft definition =
      definition.nodes.length - s.started.length + run.countUnfinished definition := by
  rw [workLeft, h.present]
  rfl

theorem workLeft_supervise_le (hn : (definition.nodes.map WorkflowNode.id).Nodup)
    (h : s.Scheduled definition checkpoint run) :
    (s.supervise encode definition around).workLeft definition ≤ s.workLeft definition := by
  obtain ⟨run', h', hm⟩ := supervise_scheduled encode around hn h
  have hle := hm.countUnfinished_le
  rw [workLeft_eq h, workLeft_eq h']
  rcases started_supervise encode definition around s with heq | ⟨-, -, -, start, -, -, heq⟩
  · rw [heq]
    omega
  · rw [heq, List.length_append]
    omega

theorem workLeft_supervise_lt_of_starting {artifacts : BTreeMap String WorkflowArtifact}
    {node : WorkflowNode} {nodes : List WorkflowNode}
    (hn : (definition.nodes.map WorkflowNode.id).Nodup)
    (h : s.Scheduled definition checkpoint run) (hs : s.stage = .starting artifacts (node :: nodes))
    (hok : around.startAgent.isOk) :
    (s.supervise encode definition around).workLeft definition < s.workLeft definition := by
  obtain ⟨run', h', hm⟩ := supervise_scheduled encode around hn h
  have hle := hm.countUnfinished_le
  have hb := h'.length_started_le
  rw [workLeft_eq h, workLeft_eq h']
  obtain ⟨agentRunId, hst⟩ := exists_of_toBool (x := around.startAgent) hok
  have hl : (s.supervise encode definition around).started.length = s.started.length + 1 := by
    rw [supervise, hs]
    simp [hst]
  omega

theorem workLeft_supervise_lt_of_completing {nid : String} {artifact : WorkflowArtifact}
    {statuses : List WorkflowNodeStatus} (hn : (definition.nodes.map WorkflowNode.id).Nodup)
    (h : s.Scheduled definition checkpoint run)
    (hs : s.stage = .completing nid artifact statuses) :
    (s.supervise encode definition around).workLeft definition < s.workLeft definition := by
  have hk := h.knows
  rw [hs] at hk
  obtain ⟨hru, -, -⟩ := hk
  obtain ⟨run', h', hm⟩ := supervise_scheduled encode around hn h
  have hsa : s.supervise encode definition around =
      (s.write (·.updateNode nid .completed none (some artifact))).goTo (.inspecting statuses) := by
    rw [supervise, hs]
  have hrn' : run' = run.updateNode nid .completed none (some artifact) := by
    have hp := h'.present
    rw [hsa] at hp
    change s.run.map _ = some run' at hp
    rw [h.present, map_some] at hp
    exact (some.inj hp).symm
  obtain ⟨stat, hstat⟩ := exists_getElem?_of_mem (mem_of_stateOf hru)
  have hr : run.Replaced run' nid { stat with state := .completed, error := none } :=
    hrn' ▸ replaced_modify updateNode_nodes hstat
  obtain ⟨node, hno, hid⟩ := List.mem_map.mp ((h.recorded.listed _).mp (mem_of_stateOf hru))
  have hlt : run'.countUnfinished definition < run.countUnfinished definition := by
    refine countP_lt hno ?_ ?_ fun other _ ho => ?_
    · rw [hid, hru]
      rfl
    · rw [hid, hr.stateOf, if_pos rfl]
      rfl
    · simp only [decide_eq_true_eq] at ho ⊢
      exact fun hc => ho (hm.completed hc)
  have hst : (s.supervise encode definition around).started = s.started := by
    rw [hsa]
    rfl
  rw [workLeft_eq h, workLeft_eq h', hst]
  omega

/-- Between two looks at the top of the loop the task gets closer to the next one, unless it
starts a node. -/
theorem rank_supervise_lt (hs : s.stage ≠ .reading) (hs' : s.stage ≠ .returned) (h : s.Underway)
    (hst : ∀ artifacts node nodes, s.stage ≠ .starting artifacts (node :: nodes))
    (hc : ∀ nid artifact statuses, s.stage ≠ .completing nid artifact statuses)
    (hp : s.run = some run) :
    (s.supervise encode definition around).stage.rank < s.stage.rank := by
  unfold supervise
  split
  case h_1 heq => exact absurd heq hs
  case h_2 heq =>
    rw [heq]
    exact lt_succ_self 2
  case h_3 stat statuses heq =>
    rw [heq]
    change (inspectStage around.agentRunStatus stat statuses).rank < _
    unfold inspectStage
    split
    · simp [SupervisorStage.rank]
    · split
      · simp [SupervisorStage.rank]
      · split
        · simp [SupervisorStage.rank]
        · split <;> simp [SupervisorStage.rank]
  case h_4 heq | h_11 heq | h_12 heq =>
    rcases h.either with ⟨hg, -⟩ | ⟨hr, -⟩
    · rw [heq] at hg
      exact hg.elim
    · exact absurd hr hs'
  case h_5 heq => exact absurd heq (hc _ _ _)
  case h_6 heq =>
    rw [heq, hp]
    change (checkStage definition run).rank < 2
    unfold checkStage
    split
    · simp [SupervisorStage.rank]
    · split <;> simp [SupervisorStage.rank]
  case h_7 heq =>
    rw [heq]
    exact lt_succ_self 0
  case h_8 heq =>
    rw [heq]
    exact lt_succ_self 0
  case h_9 heq => exact absurd heq (hst _ _ _)
  case h_10 heq =>
    rw [heq]
    exact lt_succ_self 1
  case h_13 heq => exact absurd heq hs'

/-! Whole runs. -/

theorem exists_bound {arounds : ℕ → Surroundings}
    (h : ∀ start ∈ std, ∃ m, ∀ k, m ≤ k → HasResult (arounds k) start) :
    ∃ m, ∀ start ∈ std, ∀ k, m ≤ k → HasResult (arounds k) start := by
  induction std with
  | nil => exact ⟨0, by simp⟩
  | cons start std ih =>
    obtain ⟨hf, hr⟩ := List.forall_mem_cons.mp h
    obtain ⟨m, hm⟩ := hf
    obtain ⟨m', hm'⟩ := ih hr
    refine ⟨max m m', List.forall_mem_cons.mpr ⟨fun k hk => hm k ?_, fun other ho k hk =>
      hm' other ho k ?_⟩⟩ <;> omega

/-- When nothing goes wrong, the task returns from a run that completed. -/
theorem exists_returned (arounds : ℕ → Surroundings) {init : WorkflowRunStatus}
    {states : ℕ → WorkflowService} (hw : definition.WellFormed) (hs : ∀ n, states (n + 1) =
      (states n).supervise encode definition (arounds n))
    (hsa : states 0 = start init) (hin : init.state = .running)
    (hun : ∀ id, init.stateOf id ≠ some .failed)
    (hsc : ∀ n, ∃ run, (states n).Scheduled definition checkpoint run)
    (h : Favourable arounds states) :
    ∃ n run, (states n).stage = .returned ∧ (states n).Scheduled definition checkpoint run ∧
      run.state = .completed ∧ ∀ id ∈ run.nodes, run.stateOf id = some .completed := by
  have hu (n : ℕ) : (states n).Underway := by
    induction n with
    | zero =>
      rw [hsa]
      refine ⟨fun run hr => ?_, .inl ⟨trivial, fun run hr => ?_⟩⟩
      · exact some.inj hr ▸ hun
      · exact some.inj hr ▸ hin
    | succ n ih =>
      obtain ⟨run, hr⟩ := hsc n
      rw [hs]
      exact supervise_underway (h.kind n) hr ih
  -- From some time on no work is done any more, so no node starts or completes.
  obtain ⟨m, hse⟩ := exists_steady (fun n => (states n).workLeft definition) fun n => by
    obtain ⟨run, hr⟩ := hsc n
    rw [hs]
    exact workLeft_supervise_le hw.distinct hr
  have hsi (n : ℕ) (hn : m ≤ n) : ¬ (states (n + 1)).workLeft definition <
      (states n).workLeft definition := by
    have hne : (states (n + 1)).workLeft definition = (states m).workLeft definition :=
      hse (n + 1) (by omega)
    have hnw : (states n).workLeft definition = (states m).workLeft definition := hse n hn
    omega
  have hsr (n : ℕ) (hn : m ≤ n) (artifacts : BTreeMap String WorkflowArtifact)
      (node : WorkflowNode) (nodes : List WorkflowNode) :
      (states n).stage ≠ .starting artifacts (node :: nodes) := by
    intro hst
    obtain ⟨run, hr⟩ := hsc n
    refine hsi n hn ?_
    rw [hs]
    exact workLeft_supervise_lt_of_starting hw.distinct hr hst (h.kind n).startable
  have hc (n : ℕ) (hn : m ≤ n) (nid : String) (artifact : WorkflowArtifact)
      (statuses : List WorkflowNodeStatus) :
      (states n).stage ≠ .completing nid artifact statuses := by
    intro hst
    obtain ⟨run, hr⟩ := hsc n
    refine hsi n hn ?_
    rw [hs]
    exact workLeft_supervise_lt_of_completing hw.distinct hr hst
  have hstarted (n : ℕ) (hn : m ≤ n) : (states n).started = (states m).started := by
    induction n, hn using le_induction with
    | base => rfl
    | succ n hn ih =>
      rw [hs]
      rcases started_supervise encode definition (arounds n) (states n) with
        heq | ⟨artifacts, node, nodes, -, hst, -⟩
      · exact heq.trans ih
      · exact absurd hst (hsr n hn artifacts node nodes)
  obtain ⟨late, hl⟩ := exists_bound (h.completes m)
  -- The task gets to the top of the loop after the children of the run have completed.
  obtain ⟨k, hk, ht⟩ := exists_of_decreasing (m := m) (n := max m late)
    (fun n => (states n).stage.rank)
    (fun n => (states n).stage = .reading ∨ (states n).stage = .returned)
    (fun n hn ht => by
      obtain ⟨hre, hrt⟩ := not_or.mp ht
      obtain ⟨run, hr⟩ := hsc n
      simp only [hs]
      exact rank_supervise_lt hre hrt (hu n) (hsr n hn) (hc n hn) hr.present) (by omega)
  have hd (n : ℕ) (hrt : (states n).stage = .returned) :
      ∃ n run, (states n).stage = .returned ∧ (states n).Scheduled definition checkpoint run ∧
        run.state = .completed ∧ ∀ id ∈ run.nodes, run.stateOf id = some .completed := by
    obtain ⟨run, hr⟩ := hsc n
    rcases (hu n).either with ⟨hg, -⟩ | ⟨-, hcm⟩
    · rw [hrt] at hg
      exact hg.elim
    · obtain ⟨hstate, hno⟩ := hcm run hr.present
      exact ⟨n, run, hrt, hr, hstate, hno⟩
  rcases ht with hre | hrt
  case inr => exact hd k hrt
  obtain ⟨run, hr⟩ := hsc k
  have hp := hr.present
  have hi : states (k + 1) = (states k).goTo (.inspecting run.runningNodes) := by
    rw [hs, supervise, hre, hp]
    exact congrArg (states k).goTo (readStage_eq (h.kind k) hp
      ((hu k).running (hre ▸ trivial) run hp))
  cases hno : run.runningNodes with
  | cons stat statuses =>
    obtain ⟨hstat, hrn⟩ := (waiting_runningNodes hr.recorded).current stat
      (hno ▸ List.mem_cons_self ..)
    obtain ⟨start, hsa, ha⟩ := hr.recorded.watched _ stat hstat hrn
    rw [hstarted k (by omega)] at hsa
    obtain ⟨artifact, hco⟩ := inspectStage_of_hasResult statuses
      (hl start hsa (k + 1) (by omega)) ha
    refine absurd ?_ (hc (k + 2) (by omega) stat.nodeId artifact statuses)
    rw [hs, hi, hno]
    exact hco
  | nil =>
    have hch : states (k + 2) = (states k).goTo .checking := by
      rw [hs, hi, hno]
      rfl
    have hck : states (k + 3) = (states k).goTo (checkStage definition run) := by
      rw [hs, hch]
      simp only [supervise, goTo, hp]
    rcases checkStage_eq definition (h.kind k) hp with heq | ⟨heq, ho⟩
    · refine hd (k + 4) ?_
      rw [hs, hck, heq]
      rfl
    · have hru := runnable_ne_nil hw hr.recorded hno
        ((hu k).unfailed run hp) ho
      obtain ⟨node, nodes, hcn⟩ := List.exists_cons_of_ne_nil hru
      refine absurd ?_ (hsr (k + 3) (by omega) run.artifacts node nodes)
      rw [hck, heq, hcn]
      rfl

/-- The states of the run when its child completes at once. -/
def briefingStates (child : AgentRunStatus) : ℕ → WorkflowService :=
  uninterrupted noArtifacts briefing briefingRun fun _ =>
    { unixNow := 1001, agentRunStatus := fun _ => some child, startAgent := .ok "child" }

theorem briefingStates_of_returned {child : AgentRunStatus} {m : ℕ}
    (h : (briefingStates child m).stage = .returned) {n : ℕ} (hn : m ≤ n) :
    briefingStates child n = briefingStates child m := by
  induction n, hn using le_induction with
  | base => rfl
  | succ n hn ih =>
    change (briefingStates child n).supervise noArtifacts briefing _ = _
    rw [ih, supervise, h]

/-- A child that completes, at a price above the budget of the workflow. -/
def costlyChild : AgentRunStatus :=
  { childIn .completed with
    result := (childIn .completed).result.map fun result =>
      { result with usage := some { inputTokens := 9000, outputTokens := 0 } } }

/-- The artifact of the last node of a workflow, kept without those it depends on. -/
def staleCheckpoint : BTreeMap String WorkflowArtifact :=
  (∅ : BTreeMap String WorkflowArtifact).insert "brief"
    { nodeId := "brief", mediaType := "text/plain", value := .null }

theorem validate_of_objective {ids : List String} {node : WorkflowNode}
    (ho : trim node.objective ≠ "" ∧ charCount node.objective ≤ 2000)
    (h : ({ node with objective := "-" } : WorkflowNode).validate ids = .ok ()) :
    node.validate ids = .ok () := by
  simp only [WorkflowNode.validate, unit_bind_eq_ok, bailIf_eq_ok, not_or, not_lt] at h ⊢
  obtain ⟨hid, ha, -, hd⟩ := h
  exact ⟨hid, ha, ho, hd⟩

theorem exists_stale_builtIn : ∃ definition ∈ builtInWorkflows,
    definition.validate exampleUrls = .ok () ∧
      ∃ node ∈ definition.nodes, ∃ dep ∈ node.dependsOn,
        (initialRun definition staleCheckpoint "run" 1000).stateOf node.id = some .completed ∧
          (initialRun definition staleCheckpoint "run" 1000).stateOf dep =
            some .pending := by
  refine ⟨_, List.mem_cons_self, ?_, _, List.mem_cons_of_mem _ List.mem_cons_self, "inspect",
    List.mem_cons_self, by decide +kernel⟩
  simp only [WorkflowDefinition.validate, unit_bind_eq_ok, bailIf_eq_ok, checkAll_eq_ok,
    List.forall_mem_cons, not_or, not_lt]
  refine ⟨fun h => h rfl, by decide +kernel, text_within (by decide) (by decide),
    ⟨?_, by decide⟩, by decide, List.forall_mem_nil _, by decide,
    ⟨?_, ?_, List.forall_mem_nil _⟩, by decide +kernel⟩
  · exact (text_within (n := 500) (by decide) (by decide)).2
  · exact validate_of_objective (text_within (by decide) (by decide)) (by decide +kernel)
  · exact validate_of_objective (text_within (by decide) (by decide)) (by decide +kernel)

end WorkflowService

end FocalDesk
