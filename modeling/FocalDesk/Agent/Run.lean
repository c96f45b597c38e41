import FocalDesk.Agent.Definition

/-! The records of an agent run: its request, its status, its events and its response. -/
namespace FocalDesk
open Library

inductive AgentRunState where
  | waitingForPermission
  | queued
  | running
  | awaitingConfirmation
  | completed
  | failed
  | cancelled
deriving DecidableEq, Repr

def AgentRunState.isTerminal : AgentRunState → Bool
  | completed | failed | cancelled => true
  | _ => false

structure AgentTriggerSource where
  triggerId : String
  kind : AgentTriggerKind

inductive AgentRunEventKind where
  | registered
  | triggered (triggerId : String) (triggerKind : AgentTriggerKind)
  | retried (sourceRunId : String) (recoveredSteps : ℕ)
  | permissionRequested
  | queued
  | planning (iteration : ℕ)
  | toolStarted (step : ℕ) (tool : String)
  | toolCompleted (step : ℕ) (tool : String)
  | actionProposed (tool : String)
  | awaitingConfirmation
  | completed
  | cancelled
  | failed (message : String)

structure AgentRunEvent where
  sequence : ℕ
  atUnix : ℕ
  kind : AgentRunEventKind

structure AgentRequest where
  objective : String
  agentId : Option String
  provider : Option String
  model : Option String
deriving DecidableEq

/-- `request.agent_id.as_deref().unwrap_or("desktop")` -/
def AgentRequest.agent (request : AgentRequest) : String := request.agentId.getD "desktop"

structure AgentStepResult where
  tool : String
  arguments : Value
  result : Value

structure AgentProposedAction where
  tool : String
  arguments : Value

structure AgentConfirmation where
  planId : String
  expiresAtUnix : ℕ
  tool : String
  arguments : Value

structure TokenUsage where
  inputTokens : ℕ
  outputTokens : ℕ

structure AgentResponse where
  runId : String
  provider : String
  model : Option String
  answer : String
  usage : Option TokenUsage
  steps : List AgentStepResult
  proposedAction : Option AgentProposedAction
  confirmation : Option AgentConfirmation

structure AgentRunStatus where
  runId : String
  agentId : String
  state : AgentRunState
  objectivePreview : String
  provider : String
  trigger : Option AgentTriggerSource
  model : Option String
  createdAtUnix : ℕ
  startedAtUnix : Option ℕ
  completedAtUnix : Option ℕ
  deadlineAtUnix : ℕ
  maxToolSteps : ℕ
  maxContextChars : ℕ
  maxOutputTokens : ℕ
  completedToolSteps : ℕ
  observations : List AgentStepResult
  events : List AgentRunEvent
  error : Option String
  result : Option AgentResponse

def maxRetainedAgentRunEvents : ℕ := 64

def truncatePreview (text : String) (maxChars : ℕ) : String :=
  String.ofList (text.toList.take maxChars) ++ if maxChars < charCount text then "..." else ""

namespace AgentRunStatus

def nextSequence (status : AgentRunStatus) : ℕ :=
  match status.events.getLast? with
  | some event => event.sequence + 1
  | none => 1

/-- Appends an event and drops the oldest ones over the limit. -/
def appendEvent (status : AgentRunStatus) (atUnix : ℕ) (kind : AgentRunEventKind) :
    AgentRunStatus :=
  let events := status.events ++ [⟨status.nextSequence, atUnix, kind⟩]
  { status with events := events.drop (events.length - maxRetainedAgentRunEvents) }

@[simp] theorem appendEvent_state (stat : AgentRunStatus) (atUnix : ℕ) (kind : AgentRunEventKind)
    : (stat.appendEvent atUnix kind).state = stat.state := by
  simp only [appendEvent]

@[simp] theorem appendEvent_runId (stat : AgentRunStatus) (atUnix : ℕ) (kind : AgentRunEventKind)
    : (stat.appendEvent atUnix kind).runId = stat.runId := by
  simp only [appendEvent]

def checkpoint (status : AgentRunStatus) (step : AgentStepResult) : AgentRunStatus :=
  let observations := status.observations ++ [step]
  { status with observations, completedToolSteps := observations.length }

/-- The transition the service makes whenever it settles a run in a terminal state. -/
def settle (status : AgentRunStatus) (state : AgentRunState) (now : ℕ) (error : Option String) :
    AgentRunStatus :=
  { status with state, completedAtUnix := some now, error }

/-- Cancellation of an executing run leaves its error text alone. -/
def cancel (status : AgentRunStatus) (now : ℕ) : AgentRunStatus :=
  { status with state := .cancelled, completedAtUnix := some now }

end AgentRunStatus

end FocalDesk
