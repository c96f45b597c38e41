import FocalDesk.Library.Transition
import FocalDesk.Workflow.Definition

/-! The task that drives a workflow run, step by step, and the calls that may come between. -/
namespace FocalDesk
open Library

/-- Where the task stands. Between two stages any call may take the lock. -/
inductive SupervisorStage where
  | reading
  | inspecting (nodes : List WorkflowNodeStatus)
  | failingNode (nodeId message : String)
  | completing (nodeId : String) (artifact : WorkflowArtifact) (nodes : List WorkflowNodeStatus)
  | checking
  | finishing
  | starting (artifacts : BTreeMap String WorkflowArtifact) (nodes : List WorkflowNode)
  | marking (artifacts : BTreeMap String WorkflowArtifact) (node : WorkflowNode)
      (agentRunId : String) (nodes : List WorkflowNode)
  | failing (message : String)
  | purging
  | returned

/-- A child run that was started for a node. -/
structure ChildStart where
  nodeId : String
  agentRunId : String
  request : AgentRequest
  ceiling : Option CapabilityPolicy

structure WorkflowService where
  /-- The entry of the run in the table. -/
  run : Option WorkflowRunStatus
  stage : SupervisorStage
  started : List ChildStart
  /-- The child runs that were asked to cancel. -/
  cancelled : List String

/-- What one step of the task sees of the rest of the service. -/
structure Surroundings where
  unixNow : ℕ
  agentRunStatus : String → Option AgentRunStatus
  startAgent : Except String String

namespace WorkflowService

def start (run : WorkflowRunStatus) : WorkflowService :=
  { run := some run, stage := .reading, started := [], cancelled := [] }

def goTo (service : WorkflowService) (stage : SupervisorStage) : WorkflowService :=
  { service with stage }

/-- A change of the run under the lock, if it is still in the table. -/
def write (service : WorkflowService) (update : WorkflowRunStatus → WorkflowRunStatus) :
    WorkflowService :=
  { service with run := service.run.map update }

/-- The top of the loop. A paused run sleeps and reads again. -/
def readStage (unixNow : ℕ) (run : WorkflowRunStatus) : SupervisorStage :=
  if run.state.isTerminal then .returned
  else if run.deadlineAtUnix ≤ unixNow then .failing "workflow deadline exceeded"
  else if run.state = .paused then .reading
  else .inspecting run.runningNodes

/-- What the task does about one running node of its snapshot. -/
def inspectStage (agentRunStatus : String → Option AgentRunStatus) (node : WorkflowNodeStatus)
    (nodes : List WorkflowNodeStatus) : SupervisorStage :=
  match node.agentRunId.bind agentRunStatus with
  | none => .inspecting nodes
  | some agentRun =>
    if agentRun.state.isTerminal = false then .inspecting nodes
    else if agentRun.state ≠ .completed then
      .failingNode node.nodeId (agentRun.error.getD "child agent did not complete")
    else
      match agentRun.result with
      | none => .inspecting nodes
      | some result => .completing node.nodeId (resultArtifact node.nodeId result) nodes

/-- The pending nodes whose dependencies have completed, up to the capacity that is left. -/
def runnable (definition : WorkflowDefinition) (run : WorkflowRunStatus) : List WorkflowNode :=
  let capacity := definition.maxParallelism - run.runningNodes.length
  (definition.nodes.filter fun node =>
    (run.nodes[node.id]?.any fun status => decide (status.state = .pending)) &&
      node.dependsOn.all fun dependency =>
        run.nodes[dependency]?.any fun status => decide (status.state = .completed)).take capacity

/-- The second look at the run. -/
def checkStage (definition : WorkflowDefinition) (run : WorkflowRunStatus) : SupervisorStage :=
  if run.maxTotalTokens < run.totalTokens then .failing "workflow token budget exceeded"
  else if run.nodes.toList.all fun entry => decide (entry.2.state = .completed) then .finishing
  else .starting run.artifacts (runnable definition run)

def childRequest (encode : WorkflowArtifact → String) (node : WorkflowNode)
    (artifacts : BTreeMap String WorkflowArtifact) : AgentRequest :=
  { objective := workflowNodeObjective encode node artifacts, agentId := some node.agentId,
    provider := none, model := none }

/-- One step of `run_workflow`. -/
def supervise (encode : WorkflowArtifact → String) (definition : WorkflowDefinition)
    (service : WorkflowService) (around : Surroundings) : WorkflowService :=
  match service.stage with
  | .reading =>
    match service.run with
    | none => service.goTo .returned
    | some run => service.goTo (readStage around.unixNow run)
  | .inspecting [] => service.goTo .checking
  | .inspecting (node :: nodes) =>
    service.goTo (inspectStage around.agentRunStatus node nodes)
  | .failingNode nodeId message =>
    (service.write (·.updateNode nodeId .failed (some message) none)).goTo
      (.failing ("node " ++ nodeId ++ " failed: " ++ message))
  | .completing nodeId artifact nodes =>
    (service.write (·.updateNode nodeId .completed none (some artifact))).goTo (.inspecting nodes)
  | .checking =>
    match service.run with
    | none => service.goTo .returned
    | some run => service.goTo (checkStage definition run)
  | .finishing => (service.write ({ · with state := .completed })).goTo .returned
  | .starting _ [] => service.goTo .reading
  | .starting artifacts (node :: nodes) =>
    match around.startAgent with
    | .ok agentRunId =>
      { service with
        started := service.started ++ [⟨node.id, agentRunId, childRequest encode node artifacts,
          definition.capabilityCeiling⟩]
        stage := .marking artifacts node agentRunId nodes }
    | .error error =>
      service.goTo (.failing ("node " ++ node.id ++ " could not start: " ++ error))
  | .marking artifacts node agentRunId nodes =>
    (service.write (·.markRunning node.id agentRunId)).goTo (.starting artifacts nodes)
  | .failing message => (service.write (·.fail message)).goTo .purging
  | .purging =>
    { service with
      stage := .returned
      cancelled := service.cancelled ++
        (service.run.elim [] fun run => run.runningNodes.filterMap WorkflowNodeStatus.agentRunId) }
  | .returned => service

def cancelWorkflow (service : WorkflowService) : WorkflowService :=
  match service.run with
  | none => service
  | some run =>
    if run.state.isTerminal then service
    else { service with
      run := some run.cancel.1, cancelled := service.cancelled ++ run.cancel.2 }

def setWorkflowPaused (service : WorkflowService) (paused : Bool) : WorkflowService :=
  service.write fun run =>
    if run.state.isTerminal then run
    else { run with state := if paused then .paused else .running }

/-- Starts of other workflows evict terminal runs. -/
def evict (service : WorkflowService) : WorkflowService :=
  if service.run.any fun run => run.state.isTerminal then { service with run := none }
  else service

end WorkflowService

inductive WorkflowEvent where
  | supervise (around : Surroundings)
  | cancelWorkflow
  | setWorkflowPaused (paused : Bool)
  | evict

namespace WorkflowService

def step (encode : WorkflowArtifact → String) (definition : WorkflowDefinition)
    (service : WorkflowService) : WorkflowEvent → Option WorkflowService
  | .supervise around => some (service.supervise encode definition around)
  | .cancelWorkflow => some service.cancelWorkflow
  | .setWorkflowPaused paused => some (service.setWorkflowPaused paused)
  | .evict => some service.evict

end WorkflowService

end FocalDesk
