import FocalDesk.Library.Topological
import FocalDesk.Workflow.Schedule

/-! A workflow is accepted only with an order for its nodes, and the search for cycles ends. -/
namespace FocalDesk
open Library List Nat

variable {definition defn : WorkflowDefinition} {nodes : List WorkflowNode} {node id : String}
  {dependencies deps : BTreeMap String (List String)} {visiting keys : List String} {rounds : ℕ}

/-! ### The search with its set -/

/-- A search for each of some nodes, with the set of visited nodes handed on. -/
def visitAll (visit : String → List String → Option (Except String (List String))) :
    List String → List String → Option (Except String (List String))
  | [], visiting => some (.ok visiting)
  | dependency :: rest, visiting =>
    match visit dependency visiting with
    | some (.ok visiting) => visitAll visit rest visiting
    | result => result

/-- `ensure_acyclic` with the set it changes. It has no result when the rounds are used up. -/
def ensureAcyclicSet (dependencies : BTreeMap String (List String)) :
    ℕ → String → List String → Option (Except String (List String))
  | 0, _, _ => none
  | rounds + 1, node, visiting =>
    if node ∈ visiting then some (.error "workflow dependency graph contains a cycle")
    else
      match visitAll (ensureAcyclicSet dependencies rounds) (dependencies[node]?.getD [])
        (node :: visiting) with
      | some (.ok visiting) => some (.ok (visiting.erase node))
      | result => result

/-- What a search comes to: an error, or the set as it was. -/
def searched (visiting : List String) (result : Except String Unit) :
    Option (Except String (List String)) :=
  some (result.map fun _ => visiting)

theorem visitAll_eq {visit : String → List String → Option (Except String (List String))}
    {check : String → Except String Unit} {its : List String}
    (h : ∀ dep, visit dep visiting = searched visiting (check dep)) :
    visitAll visit its visiting = searched visiting (checkAll check its) := by
  induction its with
  | nil => rfl
  | cons dep its ih =>
    rw [visitAll, h, checkAll]
    cases check dep with
    | error => rfl
    | ok => exact ih

/-- The nodes with dependencies that are not being visited. -/
def unvisited (keys visiting : List String) : List String := keys.filter fun key => key ∉ visiting

theorem unvisited_cons_lt (hk : node ∈ keys) (hn : node ∉ visiting) :
    (unvisited keys (node :: visiting)).length < (unvisited keys visiting).length := by
  have hc : unvisited keys (node :: visiting) =
      (unvisited keys visiting).filter fun key => key ≠ node := by
    unfold unvisited
    rw [filter_filter]
    refine filter_congr fun key _ => ?_
    simp [not_or]
  rw [hc]
  refine length_filter_lt_length_iff_exists.mpr ⟨node, ?_, by simp⟩
  exact mem_filter.mpr ⟨hk, by simpa using hn⟩

/-- With more rounds than there are nodes left to visit the search ends, and leaves the set as it
was. The number of rounds does not matter. -/
theorem ensureAcyclicSet_eq (hk : ∀ node, deps[node]? ≠ none → node ∈ keys) (bound : ℕ)
    : ∀ node visiting rounds, (unvisited keys visiting).length < bound →
      bound ≤ rounds → ensureAcyclicSet deps rounds node visiting =
        searched visiting (ensureAcyclic deps bound visiting node) := by
  induction bound with
  | zero => exact fun node visiting rounds h => absurd h (Nat.not_lt_zero _)
  | succ bound ih =>
    intro node visiting rounds hl hr
    obtain ⟨rounds, rfl⟩ := Nat.exists_eq_add_one.mpr (Nat.zero_lt_of_lt hr)
    rw [ensureAcyclicSet, ensureAcyclic]
    by_cases hm : node ∈ visiting
    · rw [if_pos hm, bailIf, if_pos hm]
      rfl
    · rw [if_neg hm, bailIf, if_neg hm]
      have hc : visitAll (ensureAcyclicSet deps rounds)
          (deps[node]?.getD []) (node :: visiting) =
            searched (node :: visiting) (checkAll (ensureAcyclic deps bound
              (node :: visiting)) (deps[node]?.getD [])) := by
        cases hf : deps[node]? with
        | none => rfl
        | some its =>
          have hke : node ∈ keys := hk node (by rw [hf]; exact Option.some_ne_none _)
          have hlt := unvisited_cons_lt hke hm
          exact visitAll_eq fun dep => ih dep _ rounds (by omega) (by omega)
      rw [hc]
      show _ = searched visiting (checkAll _ _)
      cases checkAll (ensureAcyclic deps bound (node :: visiting))
          (deps[node]?.getD []) with
      | error => rfl
      | ok =>
        show some (Except.ok ((node :: visiting).erase node)) = _
        rw [erase_cons_head]
        rfl

/-! ### Orders of the nodes -/

/-- An order of the nodes in which each comes after its dependencies. -/
def TopologicalOrder (nodes : List WorkflowNode) (order : List String) : Prop :=
  order.Perm (nodes.map WorkflowNode.id) ∧
    ∀ node ∈ nodes, ∀ dependency ∈ node.dependsOn, order.idxOf dependency < order.idxOf node.id

/-- Where the search goes on from a node. -/
def dependenciesOf (nodes : List WorkflowNode) (id : String) : List String :=
  (workflowDependencies nodes)[id]?.getD []

theorem dependenciesOf_eq {node : WorkflowNode} (hn : node ∈ defn.nodes)
    (hd : (defn.nodes.map WorkflowNode.id).Nodup) :
    dependenciesOf defn.nodes node.id = node.dependsOn := by
  rw [dependenciesOf, getElem?_workflowDependencies hn hd, Option.getD_some]

theorem topologicalOrder_iff {order : List String}
    (hd : (defn.nodes.map WorkflowNode.id).Nodup) :
    TopologicalOrder defn.nodes order ↔
      Topological (dependenciesOf defn.nodes) (defn.nodes.map WorkflowNode.id) order := by
  unfold TopologicalOrder Topological
  rw [forall_mem_map]
  refine and_congr_right fun _ => forall₂_congr fun node hn => ?_
  rw [dependenciesOf_eq hn hd]

theorem shallow_of_ensureAcyclic
    (h : ensureAcyclic (workflowDependencies nodes) rounds visiting id = .ok ()) :
    Shallow (dependenciesOf nodes) rounds id := by
  induction rounds generalizing visiting id with
  | zero => cases h
  | succ rounds ih =>
    simp only [ensureAcyclic, unit_bind_eq_ok, checkAll_eq_ok] at h
    exact fun dep hd => ih (h.2 dep hd)

/-- What is being visited comes later in the order, so a node is never met again. -/
theorem ensureAcyclic_of_topological {order : List String}
    (hc : ∀ id ∈ nodes.map WorkflowNode.id, ∀ dep ∈ dependenciesOf nodes id,
      dep ∈ nodes.map WorkflowNode.id)
    (h : Topological (dependenciesOf nodes) (nodes.map WorkflowNode.id) order)
    (hid : id ∈ nodes.map WorkflowNode.id) (hr : order.idxOf id < rounds)
    (hv : ∀ other ∈ visiting, order.idxOf id < order.idxOf other) :
    ensureAcyclic (workflowDependencies nodes) rounds visiting id = .ok () := by
  induction rounds generalizing visiting id with
  | zero => exact absurd hr (Nat.not_lt_zero _)
  | succ rounds ih =>
    simp only [ensureAcyclic, unit_bind_eq_ok, bailIf_eq_ok, checkAll_eq_ok]
    refine ⟨fun hm => lt_irrefl _ (hv id hm), fun dep hd => ?_⟩
    have hb := h.2 id hid dep hd
    refine ih (hc id hid dep hd) (by omega) ?_
    refine forall_mem_cons.mpr ⟨hb, fun other ho => ?_⟩
    exact hb.trans (hv other ho)

namespace WorkflowDefinition

/-- The checks besides those of the dependencies. -/
structure Checked (urls : UrlParser) (definition : WorkflowDefinition) : Prop where
  version : definition.manifestVersion = workflowManifestVersion
  id : validateId definition.id "workflow" = .ok ()
  name : ¬(trim definition.name = "" ∨ 80 < charCount definition.name)
  size : ¬(500 < charCount definition.description ∨
    ¬(1 ≤ definition.nodes.length ∧ definition.nodes.length ≤ 16))
  bounds : ¬(¬(1 ≤ definition.maxParallelism ∧ definition.maxParallelism ≤ 4) ∨
    ¬(30 ≤ definition.timeoutSeconds ∧ definition.timeoutSeconds ≤ 3600) ∨
      ¬(1000 ≤ definition.maxTotalTokens ∧ definition.maxTotalTokens ≤ 100000000))
  ceiling : ∀ policy ∈ definition.capabilityCeiling.toList, policy.validate urls = .ok ()
  distinct : (definition.nodes.map WorkflowNode.id).Nodup
  nodes : ∀ node ∈ definition.nodes, validateId node.id "workflow node" = .ok () ∧
    validateId node.agentId "agent" = .ok () ∧
      ¬(trim node.objective = "" ∨ 2000 < charCount node.objective)

/-- No dependency is named twice or undeclared. -/
def Declares (definition : WorkflowDefinition) : Prop :=
  ∀ node ∈ definition.nodes, node.dependsOn.Nodup ∧
    ∀ dependency ∈ node.dependsOn, dependency ∈ definition.nodes.map WorkflowNode.id

theorem Declares.closed (h : defn.Declares)
    (hd : (defn.nodes.map WorkflowNode.id).Nodup) :
    ∀ id ∈ defn.nodes.map WorkflowNode.id, ∀ dep ∈ dependenciesOf defn.nodes id,
      dep ∈ defn.nodes.map WorkflowNode.id := by
  rw [forall_mem_map]
  intro node hn
  rw [dependenciesOf_eq hn hd]
  exact (h node hn).2

theorem checked_of_validate {urls : UrlParser} (h : defn.validate urls = .ok ()) :
    defn.Checked urls ∧ defn.Declares ∧
      ∀ id ∈ defn.nodes.map WorkflowNode.id,
        Shallow (dependenciesOf defn.nodes) (defn.nodes.length + 1) id := by
  simp only [validate, WorkflowNode.validate, unit_bind_eq_ok, bailIf_eq_ok, checkAll_eq_ok] at h
  obtain ⟨hv, hid, hna, hs, hb, hc, hdi, hno, ha⟩ := h
  refine ⟨⟨not_not.mp hv, hid, hna, hs, hb, hc, not_not.mp hdi,
    fun node hn => ?_⟩, fun node hn => ?_,
    fun id hid => shallow_of_ensureAcyclic (ha id hid)⟩
  · obtain ⟨hn, hag, ho, -⟩ := hno node hn
    exact ⟨hn, hag, ho⟩
  · obtain ⟨-, -, -, hd⟩ := hno node hn
    simp only [not_or, not_not, not_exists, not_and] at hd
    exact ⟨hd.1, hd.2.1⟩

theorem validate_of_topological {urls : UrlParser} {order : List String}
    (hc : defn.Checked urls) (hd : defn.Declares)
    (ho : TopologicalOrder defn.nodes order) : defn.validate urls = .ok () := by
  have ht := (topologicalOrder_iff hc.distinct).mp ho
  simp only [validate, WorkflowNode.validate, unit_bind_eq_ok, bailIf_eq_ok, checkAll_eq_ok]
  refine ⟨not_not.mpr hc.version, hc.id, hc.name, hc.size, hc.bounds,
    hc.ceiling, not_not.mpr hc.distinct, fun node hn => ?_, fun id hid => ?_⟩
  · obtain ⟨hid, ha, hob⟩ := hc.nodes node hn
    obtain ⟨hno, hl⟩ := hd node hn
    refine ⟨hid, ha, hob, ?_⟩
    simp only [not_or, not_not, not_exists, not_and]
    exact ⟨hno, hl, fun hs => lt_irrefl _ (ho.2 node hn node.id hs)⟩
  · refine ensureAcyclic_of_topological (hd.closed hc.distinct) ht hid ?_
      fun _ hm => absurd hm not_mem_nil
    have hlt := idxOf_lt_length_iff.mpr (ht.1.mem_iff.mpr hid)
    rw [ht.1.length_eq, length_map] at hlt
    exact lt_succ_of_lt hlt

/-- On every graph the search for cycles ends. On the graph of a workflow it comes to what the
search along one path comes to, and a workflow that passes the other checks is accepted just if
its dependencies are declared, each once, and there is an order for its nodes. -/
theorem validate_iff_topological (urls : UrlParser) :
    (∀ (dependencies : BTreeMap String (List String)) (node : String) (visiting : List String),
      ∃ bound result, ∀ rounds, bound ≤ rounds →
        ensureAcyclicSet dependencies rounds node visiting = some result) ∧
    (∀ (definition : WorkflowDefinition) (id : String) (rounds : ℕ),
      definition.nodes.length < rounds →
        ensureAcyclicSet (workflowDependencies definition.nodes) rounds id [] =
          searched [] (ensureAcyclic (workflowDependencies definition.nodes)
            (definition.nodes.length + 1) [] id)) ∧
    ∀ definition : WorkflowDefinition, definition.validate urls = .ok () ↔
      definition.Checked urls ∧ definition.Declares ∧
        ∃ order, TopologicalOrder definition.nodes order := by
  refine ⟨fun dependencies node visiting => ?_, fun definition id rounds hr => ?_,
    fun definition => ⟨fun h => ?_, fun ⟨hc, hd, order, ho⟩ =>
      validate_of_topological hc hd ho⟩⟩
  · have hk : ∀ node, dependencies[node]? ≠ none → node ∈ dependencies.keys := by
      intro node hn
      obtain ⟨its, hi⟩ := Option.ne_none_iff_exists'.mp hn
      exact Std.ExtTreeMap.mem_keys.mpr (mem_of_getElem? hi)
    exact ⟨_, _, fun rounds hr =>
      ensureAcyclicSet_eq hk _ node visiting rounds (lt_succ_self _) hr⟩
  · have hk : ∀ node, (workflowDependencies definition.nodes)[node]? ≠ none →
        node ∈ definition.nodes.map WorkflowNode.id := by
      intro node hn
      obtain ⟨its, hi⟩ := Option.ne_none_iff_exists'.mp hn
      rcases mem_foldl_insert.mp (mem_of_getElem? hi) with he | hm
      · simp at he
      · exact hm
    refine ensureAcyclicSet_eq hk _ id [] rounds ?_ hr
    have hle := length_filter_le (fun key => decide (key ∉ ([] : List String)))
      (definition.nodes.map WorkflowNode.id)
    rw [length_map] at hle
    exact lt_succ_of_le hle
  · obtain ⟨hc, hd, hs⟩ := checked_of_validate h
    obtain ⟨order, ho⟩ := (exists_topological_iff (hd.closed hc.distinct)).mpr
      fun id hid => ⟨_, hs id hid⟩
    exact ⟨hc, hd, order, (topologicalOrder_iff hc.distinct).mpr ho⟩

end WorkflowDefinition

end FocalDesk
