import FocalDesk.Library.Progress
import FocalDesk.Workflow.Supervisor

/-! The order in which the task of a workflow starts the nodes, as long as nobody interrupts it. -/
namespace FocalDesk
open Library List

variable {encode : WorkflowArtifact → String} {defn : WorkflowDefinition}
  {point : BTreeMap String WorkflowArtifact} {run run' : WorkflowRunStatus}
  {started : List ChildStart} {s : WorkflowService} {env : Surroundings} {nodeId : String}
  {status : WorkflowNodeStatus} {statuses : List WorkflowNodeStatus} {nodes : List WorkflowNode}

namespace WorkflowRunStatus

def stateOf (run : WorkflowRunStatus) (nodeId : String) : Option WorkflowNodeState :=
  run.nodes[nodeId]?.map WorkflowNodeStatus.state

/-- What the node depends on has completed. -/
def Unblocked (run : WorkflowRunStatus) (node : WorkflowNode) : Prop :=
  ∀ dependency ∈ node.dependsOn, run.stateOf dependency = some .completed

/-- No node runs, has completed or waits to be started before what it depends on. -/
def Ordered (definition : WorkflowDefinition) (run : WorkflowRunStatus) : Prop :=
  ∀ node ∈ definition.nodes,
    run.stateOf node.id = some .running ∨ run.stateOf node.id = some .completed → run.Unblocked node

def countRunning (definition : WorkflowDefinition) (run : WorkflowRunStatus) : ℕ :=
  definition.nodes.countP fun node => decide (run.stateOf node.id = some .running)

def countUnfinished (definition : WorkflowDefinition) (run : WorkflowRunStatus) : ℕ :=
  definition.nodes.countP fun node => decide (run.stateOf node.id ≠ some .completed)

/-- `run'` is `run` with another status for the node. -/
def Replaced (run run' : WorkflowRunStatus) (nodeId : String) (status : WorkflowNodeStatus) :
    Prop :=
  ∀ id, run'.nodes[id]? = if id = nodeId then some status else run.nodes[id]?

/-- The changes the task makes to the nodes: it starts a node that is not blocked, and it records
how a running node ended. -/
inductive Moves (definition : WorkflowDefinition) (run run' : WorkflowRunStatus) : Prop where
  | keep (h : run'.nodes = run.nodes)
  | start (node : WorkflowNode) (status : WorkflowNodeStatus) (h : Replaced run run' node.id status)
      (hnode : node ∈ definition.nodes) (hpending : run.stateOf node.id = some .pending)
      (hunblocked : run.Unblocked node) (hstatus : status.state = .running)
  | finish (nodeId : String) (status : WorkflowNodeStatus) (h : Replaced run run' nodeId status)
      (hrunning : run.stateOf nodeId = some .running)
      (hstatus : status.state = .completed ∨ status.state = .failed)

/-- What holds of the record of a run, with the children that were started for it. -/
structure Recorded (definition : WorkflowDefinition) (checkpoint : BTreeMap String WorkflowArtifact)
    (started : List ChildStart) (run : WorkflowRunStatus) : Prop where
  listed : ∀ id, id ∈ run.nodes ↔ id ∈ definition.nodes.map WorkflowNode.id
  named : ∀ (id : String) (status : WorkflowNodeStatus), run.nodes[id]? = some status →
    status.nodeId = id
  uncancelled : ∀ id, run.stateOf id ≠ some .cancelled
  kept : ∀ id ∈ run.nodes, id ∈ checkpoint → run.stateOf id = some .completed
  artifact : ∀ id, run.stateOf id = some .completed → id ∈ run.artifacts
  watched : ∀ (id : String) (status : WorkflowNodeStatus), run.nodes[id]? = some status →
    status.state = .running → ∃ start ∈ started, status.agentRunId = some start.agentRunId
  begun : ∀ id ∈ run.nodes, run.stateOf id ≠ some .pending →
    id ∈ checkpoint ∨ id ∈ started.map ChildStart.nodeId
  starts : ∀ id ∈ started.map ChildStart.nodeId, id ∈ run.nodes ∧ id ∉ checkpoint
  once : (started.map ChildStart.nodeId).Nodup

/-- The statuses of a snapshot that the task has not come to, all of running nodes. -/
structure Waiting (run : WorkflowRunStatus) (statuses : List WorkflowNodeStatus) : Prop where
  distinct : (statuses.map WorkflowNodeStatus.nodeId).Nodup
  current : ∀ status ∈ statuses, run.nodes[status.nodeId]? = some status ∧ status.state = .running

/-- The nodes the task is about to start, within the capacity that was left. -/
structure Ready (definition : WorkflowDefinition) (run : WorkflowRunStatus)
    (nodes : List WorkflowNode) : Prop where
  sublist : nodes.Sublist definition.nodes
  pending : ∀ node ∈ nodes, run.stateOf node.id = some .pending
  unblocked : ∀ node ∈ nodes, run.Unblocked node
  capacity : run.countRunning definition + nodes.length ≤ definition.maxParallelism

end WorkflowRunStatus

open WorkflowRunStatus

def SupervisorStage.startedNode : SupervisorStage → Option String
  | .marking _ node _ _ => some node.id
  | _ => none

/-- What the task knows of the run at each stage. -/
def SupervisorStage.Knows (definition : WorkflowDefinition) (started : List ChildStart)
    (run : WorkflowRunStatus) : SupervisorStage → Prop
  | .inspecting statuses => run.Waiting statuses
  | .failingNode nodeId _ => run.stateOf nodeId = some .running
  | .completing nodeId _ statuses =>
    run.stateOf nodeId = some .running ∧ run.Waiting statuses ∧
      nodeId ∉ statuses.map WorkflowNodeStatus.nodeId
  | .finishing => ∀ id ∈ run.nodes, run.stateOf id = some .completed
  | .starting _ nodes => run.Ready definition nodes
  | .marking _ node agentRunId nodes =>
    run.Ready definition (node :: nodes) ∧
      ∃ start ∈ started, start.nodeId = node.id ∧ start.agentRunId = agentRunId
  | _ => True

/-- The invariant of the task over a run that nobody interrupts. -/
structure WorkflowService.Scheduled (definition : WorkflowDefinition)
    (checkpoint : BTreeMap String WorkflowArtifact) (run : WorkflowRunStatus) (s : WorkflowService)
    : Prop where
  present : s.run = some run
  recorded : run.Recorded definition checkpoint s.started
  fresh : ∀ id ∈ s.started.map ChildStart.nodeId, run.stateOf id = some .pending →
    s.stage.startedNode = some id
  capacity : run.countRunning definition ≤ definition.maxParallelism
  knows : s.stage.Knows definition s.started run

namespace WorkflowRunStatus

/-! Changes of one node. -/

theorem Replaced.stateOf (h : run.Replaced run' nodeId status) (id : String) :
    run'.stateOf id = if id = nodeId then some status.state else run.stateOf id := by
  rw [WorkflowRunStatus.stateOf, h id]
  split <;> rfl

theorem Replaced.mem (h : run.Replaced run' nodeId status) (hm : nodeId ∈ run.nodes) (id : String)
    : id ∈ run'.nodes ↔ id ∈ run.nodes := by
  rw [Std.ExtTreeMap.mem_iff_isSome_getElem?, Std.ExtTreeMap.mem_iff_isSome_getElem?, h id]
  split
  case isTrue hid =>
    subst hid
    simpa using Std.ExtTreeMap.mem_iff_isSome_getElem?.mp hm
  case isFalse => rfl

variable {state : WorkflowNodeState}

theorem mem_of_stateOf (h : run.stateOf nodeId = some state) : nodeId ∈ run.nodes := by
  obtain ⟨status, hs, -⟩ := Option.map_eq_some_iff.mp h
  exact mem_of_getElem? hs

theorem replaced_modify {f : WorkflowNodeStatus → WorkflowNodeStatus}
    (hr : run'.nodes = run.nodes.modify nodeId f) (h : run.nodes[nodeId]? = some status) :
    run.Replaced run' nodeId (f status) := by
  intro id
  rw [hr, Std.ExtTreeMap.getElem?_modify]
  by_cases hid : id = nodeId
  · subst hid
    rw [if_pos Std.ReflCmp.compare_self, if_pos rfl, h]
    rfl
  · rw [if_neg hid, if_neg fun heq => hid (Std.LawfulEqCmp.eq_of_compare heq).symm]

theorem updateNode_nodes {error : Option String}
    {artifact : Option WorkflowArtifact} : (run.updateNode nodeId state error artifact).nodes =
      run.nodes.modify nodeId fun node => { node with state, error } := by
  cases artifact <;> rfl

/-- Counts over the nodes of the definition when one of them changes. -/
theorem countP_le_succ {p q : WorkflowNode → Bool} (hn : (nodes.map WorkflowNode.id).Nodup)
    (h : ∀ node ∈ nodes, node.id ≠ nodeId → q node → p node) :
    nodes.countP q ≤ nodes.countP p + 1 := by
  induction nodes with
  | nil => simp
  | cons node nodes ih =>
    obtain ⟨hnd, hno⟩ := nodup_cons.mp hn
    obtain ⟨hf, hr⟩ := forall_mem_cons.mp h
    rw [countP_cons, countP_cons]
    by_cases hid : node.id = nodeId
    · have hle : nodes.countP q ≤ nodes.countP p := by
        refine countP_mono_left fun other ho hq => hr other ho ?_ hq
        intro hs
        exact hnd (mem_map.mpr ⟨other, ho, hs.trans hid.symm⟩)
      split <;> split <;> omega
    · have := ih hno hr
      have := hf hid
      split <;> split <;> simp_all; omega

/-! The record of a run. -/

theorem Recorded.replace (h : run.Recorded defn point started)
    (hr : run.Replaced run' nodeId status) (hold : run.stateOf nodeId = some state)
    (hop : state ≠ .completed) (hn : status.nodeId = nodeId) (hca : status.state ≠ .cancelled)
    (ha : ∀ id ∈ run.artifacts, id ∈ run'.artifacts)
    (har : status.state = .completed → nodeId ∈ run'.artifacts)
    (hw : status.state = .running → ∃ start ∈ started, status.agentRunId = some start.agentRunId)
    (hb : nodeId ∈ started.map ChildStart.nodeId) :
    run'.Recorded defn point started := by
  have hm := hr.mem (mem_of_stateOf hold)
  refine ⟨fun id => (hm id).trans (h.listed id), fun id other ho => ?_, fun id => ?_,
    fun id hid hch => ?_, fun id hc => ?_, fun id other ho hru => ?_,
    fun id hid hp => ?_, fun id hid => (h.starts id hid).imp_left (hm id).mpr, h.once⟩
  · rw [hr id] at ho
    split at ho
    case isTrue hid =>
      cases ho
      exact hn.trans hid.symm
    case isFalse => exact h.named id other ho
  · rw [hr.stateOf]
    split
    · exact fun heq => hca (Option.some.inj heq)
    · exact h.uncancelled id
  · have hc := h.kept id ((hm id).mp hid) hch
    rw [hr.stateOf, if_neg]
    · exact hc
    · rintro rfl
      exact hop (Option.some.inj (hold.symm.trans hc))
  · rw [hr.stateOf] at hc
    split at hc
    case isTrue hid => exact hid ▸ har (Option.some.inj hc)
    case isFalse => exact ha id (h.artifact id hc)
  · rw [hr id] at ho
    split at ho
    · cases ho
      exact hw hru
    · exact h.watched id other ho hru
  · by_cases hs : id = nodeId
    · subst hs
      exact .inr hb
    · rw [hr.stateOf, if_neg hs] at hp
      exact h.begun id ((hm id).mp hid) hp

theorem Recorded.keep (h : run.Recorded defn point started) (hn : run'.nodes = run.nodes)
    (ha : run'.artifacts = run.artifacts) :
    run'.Recorded defn point started := by
  cases run
  cases run'
  cases hn
  cases ha
  exact ⟨h.listed, h.named, h.uncancelled, h.kept, h.artifact, h.watched, h.begun, h.starts, h.once⟩

theorem Recorded.add {start : ChildStart} (h : run.Recorded defn point started)
    (hp : run.stateOf start.nodeId = some .pending)
    (hn : start.nodeId ∉ started.map ChildStart.nodeId) :
    run.Recorded defn point (started ++ [start]) := by
  have hm : start.nodeId ∈ run.nodes := mem_of_stateOf hp
  refine ⟨h.listed, h.named, h.uncancelled, h.kept, h.artifact,
    fun id status hsa hr => ?_, fun id hid hst => ?_, ?_, ?_⟩
  · obtain ⟨other, ho, ha⟩ := h.watched id status hsa hr
    exact ⟨other, mem_append_left _ ho, ha⟩
  · refine (h.begun id hid hst).imp_right fun hs => ?_
    rw [map_append]
    exact mem_append_left _ hs
  · simp only [map_append, map_cons, map_nil, mem_append, mem_singleton]
    rintro id (hid | rfl)
    · exact h.starts id hid
    · refine ⟨hm, fun hch => ?_⟩
      have hc := h.kept _ hm hch
      rw [hp] at hc
      cases hc
  · rw [map_append, map_singleton]
    exact nodup_append.mpr ⟨h.once, nodup_singleton _, by
      rintro id hid other ho rfl
      exact hn (mem_singleton.mp ho ▸ hid)⟩

theorem Recorded.started_of_running (h : run.Recorded defn point started)
    (hr : run.stateOf nodeId = some .running) : nodeId ∈ started.map ChildStart.nodeId := by
  have hm : nodeId ∈ run.nodes := mem_of_stateOf hr
  rcases h.begun nodeId hm (by simp [hr]) with hch | hs
  · have hc := h.kept nodeId hm hch
    rw [hr] at hc
    cases hc
  · exact hs

/-! The nodes that run. -/

theorem mem_runningNodes (h : run.Recorded defn point started) :
    status ∈ run.runningNodes ↔
      run.nodes[status.nodeId]? = some status ∧ status.state = .running := by
  simp only [runningNodes, mem_filter, mem_map, decide_eq_true_eq, Prod.exists,
    exists_eq_right, Std.ExtTreeMap.mem_toList_iff_getElem?_eq_some]
  constructor
  · rintro ⟨⟨id, hid⟩, hr⟩
    have hn := h.named id status hid
    exact ⟨hn ▸ hid, hr⟩
  · rintro ⟨hs, hr⟩
    exact ⟨⟨_, hs⟩, hr⟩

theorem map_fst_toList : (run.nodes.toList.map Prod.fst).Nodup := by
  rw [Std.ExtTreeMap.map_fst_toList_eq_keys]
  exact Std.ExtTreeMap.nodup_keys

theorem waiting_runningNodes (h : run.Recorded defn point started) :
    run.Waiting run.runningNodes := by
  refine ⟨?_, fun status hs => (mem_runningNodes h).mp hs⟩
  have hn : (run.nodes.toList.map Prod.snd).map WorkflowNodeStatus.nodeId =
      run.nodes.toList.map Prod.fst := by
    rw [map_map]
    refine map_congr_left fun e he => ?_
    exact h.named _ _ (Std.ExtTreeMap.mem_toList_iff_getElem?_eq_some.mp he)
  exact (hn ▸ map_fst_toList).sublist (filter_sublist.map _)

theorem length_runningNodes (h : run.Recorded defn point started)
    (hn : (defn.nodes.map WorkflowNode.id).Nodup) :
    run.runningNodes.length = run.countRunning defn := by
  let isRunning (id : String) : Bool := decide (run.stateOf id = some .running)
  have hp : (run.nodes.toList.map Prod.fst).Perm (defn.nodes.map WorkflowNode.id) := by
    refine (perm_ext_iff_of_nodup map_fst_toList hn).mpr fun id => ?_
    rw [Std.ExtTreeMap.map_fst_toList_eq_keys, Std.ExtTreeMap.mem_keys, h.listed]
  calc run.runningNodes.length
      = run.nodes.toList.countP (fun e => isRunning e.1) := by
        rw [runningNodes, ← countP_eq_length_filter, countP_map]
        refine countP_congr fun e he => ?_
        have hs := Std.ExtTreeMap.mem_toList_iff_getElem?_eq_some.mp he
        simp [isRunning, stateOf, hs]
    _ = (run.nodes.toList.map Prod.fst).countP isRunning := by rw [countP_map]; rfl
    _ = (defn.nodes.map WorkflowNode.id).countP isRunning := hp.countP_eq _
    _ = run.countRunning defn := by rw [countP_map]; rfl

theorem Waiting.replace (h : run.Waiting statuses) (hr : run.Replaced run' nodeId status)
    (hid : nodeId ∉ statuses.map WorkflowNodeStatus.nodeId) : run'.Waiting statuses := by
  refine ⟨h.distinct, fun other ho => ?_⟩
  rw [hr, if_neg]
  · exact h.current other ho
  · rintro rfl
    exact hid (mem_map_of_mem ho)

theorem Waiting.head (h : run.Waiting (status :: statuses)) :
    run.stateOf status.nodeId = some .running := by
  obtain ⟨hs, hr⟩ := h.current status (mem_cons_self ..)
  rw [stateOf, hs, Option.map_some, hr]

theorem Waiting.tail (h : run.Waiting (status :: statuses)) :
    run.Waiting statuses ∧ status.nodeId ∉ statuses.map WorkflowNodeStatus.nodeId := by
  obtain ⟨hn, hd⟩ := nodup_cons.mp h.distinct
  exact ⟨⟨hd, fun other ho => h.current other (mem_cons_of_mem _ ho)⟩, hn⟩

/-! Moves. -/

theorem Moves.completed (h : Moves defn run run') (hc : run.stateOf nodeId = some .completed)
    : run'.stateOf nodeId = some .completed := by
  cases h with
  | keep h => rwa [stateOf, h]
  | start node status h hn hp =>
    rw [h.stateOf, if_neg]
    · exact hc
    · rintro rfl
      rw [hp] at hc
      cases hc
  | finish id status h hr =>
    rw [h.stateOf, if_neg]
    · exact hc
    · rintro rfl
      rw [hr] at hc
      cases hc

theorem Moves.unblocked {node : WorkflowNode} (h : Moves defn run run')
    (hn : run.Unblocked node) : run'.Unblocked node :=
  fun dep hd => h.completed (hn dep hd)

/-- A move leaves the nodes in order. -/
theorem Moves.ordered (h : Moves defn run run')
    (hno : (defn.nodes.map WorkflowNode.id).Nodup) (ho : run.Ordered defn) :
    run'.Ordered defn := by
  intro node hn hs
  refine h.unblocked ?_
  cases h with
  | keep h =>
    rw [stateOf, h] at hs
    exact ho node hn hs
  | start fst status h hf hp hu =>
    by_cases hsa : node.id = fst.id
    · obtain rfl := inj_on_of_nodup_map hno hn hf hsa
      exact hu
    · rw [h.stateOf, if_neg hsa] at hs
      exact ho node hn hs
  | finish id status h hr =>
    by_cases hsa : node.id = id
    · exact ho node hn (.inl (hsa ▸ hr))
    · rw [h.stateOf, if_neg hsa] at hs
      exact ho node hn hs

theorem Moves.countUnfinished_le (h : Moves defn run run') :
    run'.countUnfinished defn ≤ run.countUnfinished defn := by
  refine countP_mono_left fun node _ hn => ?_
  simp only [decide_eq_true_eq] at hn ⊢
  exact fun hc => hn (h.completed hc)

theorem Replaced.countRunning_le (h : run.Replaced run' nodeId status)
    (hs : status.state ≠ .running) :
    run'.countRunning defn ≤ run.countRunning defn := by
  refine countP_mono_left fun node _ hn => ?_
  simp only [decide_eq_true_eq, h.stateOf] at hn ⊢
  split at hn
  · exact absurd (Option.some.inj hn) hs
  · exact hn

theorem Replaced.countRunning_le_succ (h : run.Replaced run' nodeId status)
    (hn : (defn.nodes.map WorkflowNode.id).Nodup) :
    run'.countRunning defn ≤ run.countRunning defn + 1 := by
  have hno (node : WorkflowNode) (hid : node.id ≠ nodeId) :
      run'.stateOf node.id = run.stateOf node.id := by rw [h.stateOf, if_neg hid]
  refine countP_le_succ hn fun node _ (hid : node.id ≠ nodeId) => ?_
  rw [hno node hid]
  exact id

theorem Ready.next {node : WorkflowNode} (h : run.Ready defn (node :: nodes))
    (hr : run.Replaced run' node.id status) (hm : Moves defn run run')
    (hn : (defn.nodes.map WorkflowNode.id).Nodup) : run'.Ready defn nodes := by
  obtain ⟨hne, -⟩ := nodup_cons.mp (hn.sublist (h.sublist.map WorkflowNode.id))
  refine ⟨(sublist_cons_self ..).trans h.sublist, fun other ho => ?_, fun other ho => ?_, ?_⟩
  · rw [hr.stateOf, if_neg]
    · exact h.pending other (mem_cons_of_mem _ ho)
    · intro hs
      exact hne (hs ▸ mem_map_of_mem ho)
  · exact hm.unblocked (h.unblocked other (mem_cons_of_mem _ ho))
  · have hc := hr.countRunning_le_succ hn
    have hca := h.capacity
    rw [length_cons] at hca
    omega

theorem ready_runnable (h : run.Recorded defn point started)
    (hno : (defn.nodes.map WorkflowNode.id).Nodup)
    (hca : run.countRunning defn ≤ defn.maxParallelism) :
    run.Ready defn (WorkflowService.runnable defn run) := by
  have hm (node : WorkflowNode) (hn : node ∈ WorkflowService.runnable defn run) :
      run.stateOf node.id = some .pending ∧ run.Unblocked node := by
    have hc := (mem_filter.mp (mem_of_mem_take hn)).2
    simp only [Bool.and_eq_true, all_eq_true, Option.any_eq_true, decide_eq_true_eq] at hc
    exact ⟨Option.map_eq_some_iff.mpr hc.1, fun dep hd => Option.map_eq_some_iff.mpr (hc.2 dep hd)⟩
  refine ⟨(take_sublist ..).trans filter_sublist, fun node hn => (hm node hn).1,
    fun node hn => (hm node hn).2, ?_⟩
  have hl := length_take_le
    (defn.maxParallelism - run.runningNodes.length) (defn.nodes.filter fun node =>
    (run.nodes[node.id]?.any fun status => decide (status.state = .pending)) &&
      node.dependsOn.all fun dep =>
        run.nodes[dep]?.any fun status => decide (status.state = .completed))
  rw [length_runningNodes h hno] at hl
  rw [WorkflowService.runnable, length_runningNodes h hno]
  omega

end WorkflowRunStatus

namespace WorkflowService
open WorkflowRunStatus

/-! What the task knows after each look at the run. -/

theorem knows_readStage {now : ℕ} (h : run.Recorded defn point started) :
    (readStage now run).Knows defn started run := by
  unfold readStage
  split
  · trivial
  · split
    · trivial
    · split
      · trivial
      · exact waiting_runningNodes h

theorem knows_inspectStage {agentRunStatus : String → Option AgentRunStatus}
    (h : run.Waiting (status :: statuses)) :
    (inspectStage agentRunStatus status statuses).Knows defn started run := by
  obtain ⟨ht, hn⟩ := h.tail
  unfold inspectStage
  split
  · exact ht
  · split
    · exact ht
    · split
      · exact h.head
      · split
        · exact ht
        · exact ⟨h.head, ht, hn⟩

theorem knows_checkStage (h : run.Recorded defn point started)
    (hn : (defn.nodes.map WorkflowNode.id).Nodup)
    (hca : run.countRunning defn ≤ defn.maxParallelism) :
    (checkStage defn run).Knows defn started run := by
  unfold checkStage
  split
  · trivial
  · split
    case isTrue ha =>
      intro id hid
      obtain ⟨status, hs⟩ := exists_getElem?_of_mem hid
      have hm := Std.ExtTreeMap.mem_toList_iff_getElem?_eq_some.mpr hs
      have hc : status.state = .completed := of_decide_eq_true (all_eq_true.mp ha _ hm)
      rw [stateOf, hs, Option.map_some, hc]
    case isFalse => exact ready_runnable h hn hca

/-! Steps. -/

variable {stage : SupervisorStage}

theorem Scheduled.goTo (h : s.Scheduled defn point run) (hm : s.stage.startedNode = none)
    (hs : stage.Knows defn s.started run) :
    (s.goTo stage).Scheduled defn point run := by
  refine ⟨h.present, h.recorded, fun id hid hp => ?_, h.capacity, hs⟩
  have hf := h.fresh id hid hp
  rw [hm] at hf
  cases hf

variable {upd : WorkflowRunStatus → WorkflowRunStatus}

theorem Scheduled.write (h : s.Scheduled defn point run) (hru : upd run = run')
    (hr : run'.Recorded defn point s.started)
    (hf : ∀ id ∈ s.started.map ChildStart.nodeId, run'.stateOf id ≠ some .pending)
    (hc : run'.countRunning defn ≤ defn.maxParallelism)
    (hs : stage.Knows defn s.started run') :
    ((s.write upd).goTo stage).Scheduled defn point run' := by
  refine ⟨?_, hr, fun id hid hp => absurd hp (hf id hid), hc, hs⟩
  change s.run.map upd = some run'
  rw [h.present, Option.map_some, hru]

theorem Scheduled.started_ne_pending (h : s.Scheduled defn point run)
    (hm : s.stage.startedNode = none) (hid : nodeId ∈ s.started.map ChildStart.nodeId) :
    run.stateOf nodeId ≠ some .pending := by
  intro hp
  have hf := h.fresh nodeId hid hp
  rw [hm] at hf
  cases hf

/-- The task leaves the nodes as they are. -/
theorem Scheduled.writeKeep (h : s.Scheduled defn point run)
    (hm : s.stage.startedNode = none) (hn : (upd run).nodes = run.nodes)
    (ha : (upd run).artifacts = run.artifacts) (hst : stage.Knows defn s.started (upd run)) :
    ((s.write upd).goTo stage).Scheduled defn point (upd run) := by
  have hs (id : String) : (upd run).stateOf id = run.stateOf id := by
    rw [stateOf, hn, stateOf]
  refine h.write rfl (h.recorded.keep hn ha) (fun id hid => ?_) ?_ hst
  · rw [hs]
    exact h.started_ne_pending hm hid
  · simpa only [countRunning, hs] using h.capacity

/-- The task records how a running node ended. -/
theorem Scheduled.writeEnd {state : WorkflowNodeState} {error : Option String}
    {artifact : Option WorkflowArtifact}
    (h : s.Scheduled defn point run) (hm : s.stage.startedNode = none)
    (hru : run.stateOf nodeId = some .running)
    (hs : state = .completed ∧ artifact.isSome ∨ state = .failed)
    (hsa : ∀ run' status, run.Replaced run' nodeId status → stage.Knows defn s.started run') :
    ∃ run', ((s.write (·.updateNode nodeId state error artifact)).goTo stage).Scheduled
      defn point run' ∧ Moves defn run run' := by
  obtain ⟨status, hst⟩ := exists_getElem?_of_mem (mem_of_stateOf hru)
  have hna : status.nodeId = nodeId := h.recorded.named nodeId status hst
  have hr : run.Replaced (run.updateNode nodeId state error artifact) nodeId
      { status with state, error } := replaced_modify updateNode_nodes hst
  have he : state = .completed ∨ state = .failed := hs.imp_left And.left
  have hn : state ≠ .running ∧ state ≠ .pending ∧ state ≠ .cancelled := by
    rcases he with rfl | rfl <;> simp
  refine ⟨_, h.write rfl ?_ (fun id hid => ?_) ((hr.countRunning_le hn.1).trans h.capacity)
    (hsa _ _ hr), .finish nodeId _ hr hru he⟩
  · refine h.recorded.replace hr hru (by simp) hna hn.2.2
      (fun id hid => ?_) (fun hc => ?_) (fun hrn => absurd hrn hn.1)
      (h.recorded.started_of_running hru)
    · cases artifact with
      | none => exact hid
      | some artifact => exact Std.ExtTreeMap.mem_insert.mpr (.inr hid)
    · rcases hs with ⟨-, ha⟩ | rfl
      · obtain ⟨artifact, rfl⟩ := Option.isSome_iff_exists.mp ha
        exact Std.ExtTreeMap.mem_insert_self
      · cases hc
  · rw [hr.stateOf]
    split
    · exact fun heq => hn.2.1 (Option.some.inj heq)
    · exact h.started_ne_pending hm hid

variable {artifacts : BTreeMap String WorkflowArtifact}

/-- The task starts a node and says so to nobody yet. -/
theorem Scheduled.startNode {node : WorkflowNode}
    {agentRunId : String} {req : AgentRequest} {ceiling : Option CapabilityPolicy}
    (h : s.Scheduled defn point run)
    (hs : s.stage = .starting artifacts (node :: nodes)) :
    ({ s with
        started := s.started ++ [⟨node.id, agentRunId, req, ceiling⟩]
        stage := .marking artifacts node agentRunId nodes } : WorkflowService).Scheduled
      defn point run := by
  have hm : s.stage.startedNode = none := by rw [hs]; rfl
  have hr : run.Ready defn (node :: nodes) := by
    have hk := h.knows
    rwa [hs] at hk
  have hp : run.stateOf node.id = some .pending := hr.pending node (mem_cons_self ..)
  have hn : node.id ∉ s.started.map ChildStart.nodeId := fun hid =>
    h.started_ne_pending hm hid hp
  refine ⟨h.present, h.recorded.add hp hn, fun id hid hid' => ?_, h.capacity, hr,
    ⟨node.id, agentRunId, req, ceiling⟩, by simp, rfl, rfl⟩
  simp only [map_append, map_cons, map_nil, mem_append, mem_singleton] at hid
  rcases hid with hid | rfl
  · exact absurd hid' (h.started_ne_pending hm hid)
  · rfl

/-- The task marks the node it has started. -/
theorem Scheduled.mark {node : WorkflowNode}
    {agentRunId : String} (hno : (defn.nodes.map WorkflowNode.id).Nodup)
    (h : s.Scheduled defn point run)
    (hs : s.stage = .marking artifacts node agentRunId nodes) :
    ((s.write (·.markRunning node.id agentRunId)).goTo (.starting artifacts nodes)).Scheduled
        defn point (run.markRunning node.id agentRunId) ∧
      Moves defn run (run.markRunning node.id agentRunId) := by
  have hk := h.knows
  rw [hs] at hk
  obtain ⟨hre, start, hst, hnd, ha⟩ := hk
  have hp : run.stateOf node.id = some .pending := hre.pending node (mem_cons_self ..)
  obtain ⟨status, hsa⟩ := exists_getElem?_of_mem (mem_of_stateOf hp)
  have hna : status.nodeId = node.id := h.recorded.named node.id status hsa
  have hr : run.Replaced (run.markRunning node.id agentRunId) node.id
      { status with state := .running, agentRunId := some agentRunId } :=
    replaced_modify
      (f := fun node => { node with state := .running, agentRunId := some agentRunId }) rfl hsa
  have hm : Moves defn run (run.markRunning node.id agentRunId) :=
    .start node _ hr (hre.sublist.subset (mem_cons_self ..)) hp
      (hre.unblocked node (mem_cons_self ..)) rfl
  have hn := hre.next hr hm hno
  refine ⟨h.write rfl ?_ (fun id hid => ?_) ?_ ?_, hm⟩
  · exact h.recorded.replace hr hp (by simp) hna (by simp)
      (fun _ hid => hid) (by simp) (fun _ => ⟨start, hst, ha ▸ rfl⟩)
      (mem_map.mpr ⟨start, hst, hnd⟩)
  · rw [hr.stateOf]
    split
    · simp
    case isFalse ho =>
      intro hsi
      have hf := h.fresh id hid hsi
      rw [hs] at hf
      exact ho (Option.some.inj hf).symm
  · have hc := hn.capacity
    omega
  · exact hn

/-- What one step of the task keeps, and what it does to the nodes. -/
theorem supervise_scheduled (encode : WorkflowArtifact → String) (env : Surroundings)
    (hn : (defn.nodes.map WorkflowNode.id).Nodup) (h : s.Scheduled defn point run)
    :
    ∃ run', (s.supervise encode defn env).Scheduled defn point run' ∧
      Moves defn run run' := by
  have hp := h.present
  have hk := h.knows
  have hrc := h.recorded
  unfold supervise
  split
  case h_1 hs =>
    rw [hp]
    exact ⟨run, h.goTo (hs ▸ rfl) (knows_readStage hrc), .keep rfl⟩
  case h_2 hs => exact ⟨run, h.goTo (hs ▸ rfl) trivial, .keep rfl⟩
  case h_3 hs =>
    rw [hs] at hk
    exact ⟨run, h.goTo (hs ▸ rfl) (knows_inspectStage hk), .keep rfl⟩
  case h_4 hs =>
    rw [hs] at hk
    exact h.writeEnd (hs ▸ rfl) hk (.inr rfl) fun _ _ _ => trivial
  case h_5 hs =>
    rw [hs] at hk
    obtain ⟨hru, hw, hne⟩ := hk
    exact h.writeEnd (hs ▸ rfl) hru (.inl ⟨rfl, rfl⟩) fun _ _ hr => hw.replace hr hne
  case h_6 hs =>
    rw [hp]
    exact ⟨run, h.goTo (hs ▸ rfl) (knows_checkStage hrc hn h.capacity), .keep rfl⟩
  case h_7 hs => exact ⟨_, h.writeKeep (hs ▸ rfl) rfl rfl trivial, .keep rfl⟩
  case h_8 hs => exact ⟨run, h.goTo (hs ▸ rfl) trivial, .keep rfl⟩
  case h_9 hs =>
    split
    · exact ⟨run, h.startNode hs, .keep rfl⟩
    · exact ⟨run, h.goTo (hs ▸ rfl) trivial, .keep rfl⟩
  case h_10 hs => exact ⟨_, h.mark hn hs⟩
  case h_11 msg hs =>
    have hf : (run.fail msg).nodes = run.nodes ∧
        (run.fail msg).artifacts = run.artifacts := by
      unfold WorkflowRunStatus.fail
      split <;> exact ⟨rfl, rfl⟩
    exact ⟨_, h.writeKeep (hs ▸ rfl) hf.1 hf.2 trivial, .keep hf.1⟩
  case h_12 hs =>
    have hre : (s.goTo .returned).Scheduled defn point run := h.goTo (hs ▸ rfl) trivial
    exact ⟨run, ⟨hre.present, hre.recorded, hre.fresh, hre.capacity, trivial⟩, .keep rfl⟩
  case h_13 => exact ⟨run, h, .keep rfl⟩

end WorkflowService

/-! Workflows that were accepted. -/

/-- What `validate` promises of the nodes of a workflow. -/
structure WorkflowDefinition.WellFormed (definition : WorkflowDefinition) : Prop where
  distinct : (definition.nodes.map WorkflowNode.id).Nodup
  listed : ∀ node ∈ definition.nodes, ∀ dependency ∈ node.dependsOn,
    dependency ∈ definition.nodes.map WorkflowNode.id
  acyclic : ∀ id ∈ definition.nodes.map WorkflowNode.id,
    ensureAcyclic (workflowDependencies definition.nodes) (definition.nodes.length + 1) [] id =
      .ok ()
  capacity : 1 ≤ definition.maxParallelism

theorem WorkflowDefinition.wellFormed {urls : UrlParser} (h : defn.validate urls = .ok ()) :
    defn.WellFormed := by
  simp only [validate, WorkflowNode.validate, unit_bind_eq_ok, bailIf_eq_ok, checkAll_eq_ok,
    not_or, not_not, not_exists, not_and] at h
  obtain ⟨-, -, -, -, hb, -, hd, hn, ha⟩ := h
  refine ⟨hd, fun node hno dep hde =>
    (hn node hno).2.2.2.2.1 dep hde, ha, ?_⟩
  by_contra hz
  exact hb.1 fun ho => absurd ho hz

theorem getElem?_workflowDependencies {node : WorkflowNode} (hn : node ∈ defn.nodes)
    (hd : (defn.nodes.map WorkflowNode.id).Nodup) :
    (workflowDependencies defn.nodes)[node.id]? = some node.dependsOn := by
  obtain ⟨dependsOn, hf⟩ := exists_getElem?_of_mem
    (mem_foldl_insert.mpr (.inr (mem_map_of_mem hn)) :
      node.id ∈ workflowDependencies defn.nodes)
  rcases getElem?_foldl_insert hf with he | ⟨other, ho, hid, rfl⟩
  · simp at he
  · rwa [inj_on_of_nodup_map hd ho hn hid] at hf

namespace WorkflowRunStatus

/-- Along the dependencies of a node that has not completed lies one that is not blocked. -/
theorem exists_unblocked (hw : defn.WellFormed) {rs : ℕ} {visiting : List String}
    (ha : ensureAcyclic (workflowDependencies defn.nodes) rs visiting nodeId = .ok ())
    (hid : nodeId ∈ defn.nodes.map WorkflowNode.id)
    (ho : run.stateOf nodeId ≠ some .completed) :
    ∃ node ∈ defn.nodes, run.stateOf node.id ≠ some .completed ∧ run.Unblocked node := by
  induction rs generalizing visiting nodeId with
  | zero => cases ha
  | succ rs ih =>
    simp only [ensureAcyclic, unit_bind_eq_ok, checkAll_eq_ok] at ha
    obtain ⟨node, hn, rfl⟩ := mem_map.mp hid
    rw [getElem?_workflowDependencies hn hw.distinct] at ha
    by_cases hu : run.Unblocked node
    · exact ⟨node, hn, ho, hu⟩
    · simp only [Unblocked, not_forall] at hu
      obtain ⟨dep, hd, hb⟩ := hu
      exact ih (ha.2 dep hd) (hw.listed node hn dep hd) hb

/-- A run that waits for no child and has not failed has a node to start. -/
theorem runnable_ne_nil (hw : defn.WellFormed)
    (h : run.Recorded defn point started) (hi : run.runningNodes = [])
    (hf : ∀ id, run.stateOf id ≠ some .failed)
    (ho : ∃ id ∈ run.nodes, run.stateOf id ≠ some .completed) :
    WorkflowService.runnable defn run ≠ [] := by
  obtain ⟨id, hid, ho⟩ := ho
  have hl := (h.listed id).mp hid
  obtain ⟨node, hn, ho, hu⟩ := exists_unblocked hw (hw.acyclic id hl) hl ho
  obtain ⟨status, hst⟩ := exists_getElem?_of_mem ((h.listed node.id).mpr (mem_map_of_mem hn))
  have hs : run.stateOf node.id = some status.state := by
    rw [stateOf, hst, Option.map_some]
  have hp : status.state = .pending := by
    cases hc : status.state with
    | pending => rfl
    | running =>
      have hr : status ∈ run.runningNodes := (mem_runningNodes h).mpr
        ⟨(h.named _ _ hst).symm ▸ hst, hc⟩
      rw [hi] at hr
      cases hr
    | completed => exact absurd (hc ▸ hs) ho
    | failed => exact absurd (hc ▸ hs) (hf node.id)
    | cancelled => exact absurd (hc ▸ hs) (h.uncancelled node.id)
  have hca : node ∈ defn.nodes.filter fun node =>
      (run.nodes[node.id]?.any fun status => decide (status.state = .pending)) &&
        node.dependsOn.all fun dep =>
          run.nodes[dep]?.any fun status => decide (status.state = .completed) := by
    refine mem_filter.mpr ⟨hn, ?_⟩
    simp only [Bool.and_eq_true, all_eq_true, Option.any_eq_true, decide_eq_true_eq]
    exact ⟨⟨status, hst, hp⟩, fun dep hd =>
      Option.map_eq_some_iff.mp (hu dep hd)⟩
  rw [WorkflowService.runnable, hi, length_nil, Nat.sub_zero]
  intro hni
  rcases take_eq_nil_iff.mp hni with hz | hno
  · have hcp := hw.capacity
    omega
  · rw [hno] at hca
    cases hca

end WorkflowRunStatus

/-! Runs as they start. -/

/-- A node whose artifact is kept has its dependencies kept as well. -/
def WorkflowDefinition.Closed (definition : WorkflowDefinition)
    (checkpoint : BTreeMap String WorkflowArtifact) : Prop :=
  ∀ node ∈ definition.nodes, node.id ∈ checkpoint →
    ∀ dependency ∈ node.dependsOn, dependency ∈ checkpoint

section
variable {rid : String} {now : ℕ}

variable {id : String}

theorem mem_initialNodes :
    id ∈ initialNodes defn point ↔ id ∈ defn.nodes.map WorkflowNode.id := by
  rw [initialNodes, mem_foldl_insert]
  simp

theorem getElem?_initialNodes {status : WorkflowNodeStatus}
    (h : (initialNodes defn point)[id]? = some status) :
    status.nodeId = id ∧ status.agentRunId = none ∧
      status.state = if id ∈ point then .completed else .pending := by
  rcases getElem?_foldl_insert h with he | ⟨node, -, rfl, rfl⟩
  · simp at he
  · exact ⟨rfl, rfl, rfl⟩

theorem initialRun_stateOf (h : id ∈ defn.nodes.map WorkflowNode.id) :
    (initialRun defn point rid now).stateOf id =
      some (if id ∈ point then .completed else .pending) := by
  obtain ⟨status, hs⟩ := exists_getElem?_of_mem ((mem_initialNodes).mpr h)
  rw [WorkflowRunStatus.stateOf, ← (getElem?_initialNodes hs).2.2]
  exact congrArg (Option.map WorkflowNodeStatus.state) hs

theorem initialRun_stateOf_eq {state : WorkflowNodeState}
    (h : (initialRun defn point rid now).stateOf id = some state) :
    id ∈ defn.nodes.map WorkflowNode.id ∧
      state = if id ∈ point then .completed else .pending := by
  have hid := (mem_initialNodes).mp (WorkflowRunStatus.mem_of_stateOf h)
  rw [initialRun_stateOf hid] at h
  exact ⟨hid, (Option.some.inj h).symm⟩

theorem initialRun_recorded :
    (initialRun defn point rid now).Recorded defn point [] := by
  refine ⟨fun _ => mem_initialNodes, fun id status hst => (getElem?_initialNodes hst).1,
    fun id hs => ?_, fun id hid hk => ?_, fun id hs => ?_,
    fun id status hst hs => ?_, fun id hid hs => ?_, by simp, nodup_nil⟩
  · have hc := (initialRun_stateOf_eq hs).2
    split at hc <;> cases hc
  · rw [initialRun_stateOf ((mem_initialNodes).mp hid), if_pos hk]
  · have hc := (initialRun_stateOf_eq hs).2
    split at hc
    case isTrue hk => exact hk
    case isFalse => cases hc
  · rw [(getElem?_initialNodes hst).2.2] at hs
    split at hs <;> cases hs
  · rw [initialRun_stateOf ((mem_initialNodes).mp hid)] at hs
    split at hs
    case isTrue hk => exact .inl hk
    case isFalse => exact absurd rfl hs

theorem initialRun_ordered (hw : defn.WellFormed) (hc : defn.Closed point) :
    (initialRun defn point rid now).Ordered defn := by
  intro node hn hs dep hd
  have hl : node.id ∈ defn.nodes.map WorkflowNode.id := mem_map_of_mem hn
  have hk : node.id ∈ point := by
    rw [initialRun_stateOf hl] at hs
    by_contra hf
    simp [hf] at hs
  rw [initialRun_stateOf (hw.listed node hn dep hd), if_pos (hc node hn hk dep hd)]

theorem start_scheduled : (WorkflowService.start (initialRun defn point rid now)).Scheduled
    defn point (initialRun defn point rid now) := by
  refine ⟨rfl, initialRun_recorded, by simp [WorkflowService.start], ?_, trivial⟩
  have hz : (initialRun defn point rid now).countRunning defn = 0 := by
    refine countP_eq_zero.mpr fun node hn => ?_
    rw [initialRun_stateOf (mem_map_of_mem hn)]
    split <;> simp
  omega

end

namespace WorkflowService

/-- The states of the task when nobody interrupts it, with what each step sees of the service. -/
def uninterrupted (encode : WorkflowArtifact → String) (definition : WorkflowDefinition)
    (initial : WorkflowRunStatus) (arounds : ℕ → Surroundings) : ℕ → WorkflowService
  | 0 => start initial
  | n + 1 => (uninterrupted encode definition initial arounds n).supervise encode definition
      (arounds n)

theorem uninterrupted_scheduled (encode : WorkflowArtifact → String)
    (point : BTreeMap String WorkflowArtifact) (runId : String) (now : ℕ)
    (arounds : ℕ → Surroundings) (hw : defn.WellFormed) (n : ℕ) :
    ∃ run, (uninterrupted encode defn (initialRun defn point runId now) arounds
        n).Scheduled defn point run ∧
      (defn.Closed point → run.Ordered defn) := by
  induction n with
  | zero => exact ⟨_, start_scheduled, initialRun_ordered hw⟩
  | succ n ih =>
    obtain ⟨run, hr, ho⟩ := ih
    obtain ⟨run', hr', hm⟩ := supervise_scheduled encode (arounds n) hw.distinct hr
    exact ⟨run', hr', fun hc => hm.ordered hw.distinct (ho hc)⟩

end WorkflowService

end FocalDesk
