import FocalDesk.Agent.Run
import FocalDesk.Integer

/-! The planner: the catalogue it is shown and the plans it may return. -/
namespace FocalDesk
open Library

structure AgentToolSpec where
  name : String
  description : String
  inputSchema : Value
  mutating : Bool

structure PlanStep where
  tool : String
  arguments : Value

structure Plan where
  steps : List PlanStep
  answer : Option String

/-- The serializers of the agent loop, and the reader of a plan. -/
structure AgentCodec where
  /-- `serde_json::from_str::<Plan>` -/
  readPlan : String → Option Plan
  toolsText : List AgentToolSpec → String
  stepsText : List AgentStepResult → String
  valueText : Value → String
  proposalText : Option AgentProposedAction → String

def Value.isObject : Value → Bool
  | .object _ => true
  | _ => false

/-- The entry that decides about a tool name. -/
def findTool (tools : List AgentToolSpec) (name : String) : Option AgentToolSpec :=
  tools.find? fun tool => tool.name == name

namespace Planner

def systemPromptFor (codec : AgentCodec) (tools : List AgentToolSpec) (maxSteps : ℕ)
    (agentInstructions : String) : String :=
  "You are the FocalDesk read-only desktop planner. Return exactly one JSON object and no markdown. " ++
    "The schema is \x7b\"steps\":[\x7b\"tool\":\"name\",\"arguments\":\x7b\x7d\x7d],\"answer\":null\x7d. " ++
    "Use no more than " ++ toString maxSteps ++ " steps. Only use tools in this catalog: " ++
    codec.toolsText tools ++ ". " ++
    "If no tool is needed, return an empty steps array and put the complete answer in `answer`. " ++
    "Mutating tools may only be proposed, never considered executed. " ++
    "Never set or invent a `confirmed` argument. " ++
    "Never invent tool names or arguments. Agent-specific instructions: " ++ agentInstructions

def checkStep (tools : List AgentToolSpec) (step : PlanStep) : Except String Unit := do
  bailIf ((findTool tools step.tool).isNone) ("planner requested unknown tool: " ++ step.tool)
  bailIf (step.arguments.isObject = false)
    ("planner arguments for " ++ step.tool ++ " must be an object")
  bailIf ((step.arguments.get "confirmed").isSome)
    ("planner must not supply confirmation for " ++ step.tool)

/-- The mutating steps of a plan with their positions. -/
def mutations (tools : List AgentToolSpec) (plan : Plan) : List (PlanStep × ℕ) :=
  plan.steps.zipIdx.filter fun step =>
    (findTool tools step.1.tool).any fun tool => tool.mutating

def parseWithLimit (codec : AgentCodec) (content : String) (tools : List AgentToolSpec)
    (maxSteps : ℕ) : Except String Plan := do
  let plan ← okOr (codec.readPlan (trim content)) "planner response must be a single JSON object"
  bailIf (maxSteps < plan.steps.length)
    ("planner requested more than " ++ toString maxSteps ++ " tool steps")
  checkAll (checkStep tools) plan.steps
  bailIf (1 < (mutations tools plan).length) "planner may propose at most one mutating tool"
  bailIf (∃ step ∈ (mutations tools plan).head?, step.2 + 1 ≠ plan.steps.length)
    "a mutating tool must be the final plan step"
  bailIf (plan.steps.isEmpty = true ∧ plan.answer.getD "" = "")
    "planner returned neither tool steps nor an answer"
  return plan

variable {codec : AgentCodec} {cont : String} {ts : List AgentToolSpec} {maxSteps : ℕ}
  {plan : Plan} {step : PlanStep}

theorem checkStep_eq_ok {u : Unit} : checkStep ts step = .ok u ↔
    (findTool ts step.tool).isSome ∧ step.arguments.isObject ∧
      step.arguments.get "confirmed" = none := by
  simp [checkStep, Option.isSome_iff_ne_none]

/-- What the planner lets through. -/
theorem parseWithLimit_spec (h : parseWithLimit codec cont ts maxSteps = .ok plan) :
    plan.steps.length ≤ maxSteps ∧ ∀ step ∈ plan.steps,
      (findTool ts step.tool).isSome ∧ step.arguments.isObject ∧
        step.arguments.get "confirmed" = none := by
  simp only [parseWithLimit, bind_eq_ok, okOr_eq_ok, bailIf_eq_ok, checkAll_eq_ok, pure_eq_ok] at h
  obtain ⟨plan', -, -, hl, -, hs, -, -, -, -, -, -, rfl⟩ := h
  refine ⟨by omega, ?_⟩
  intro step hst
  exact (checkStep_eq_ok).mp (hs step hst)

end Planner

/-! The observe-and-replan loop of an agent, and what it can be made to do. -/

def maxToolResultChars : ℕ := 16000

def maxAgentContextChars : ℕ := 48000

inductive ChatRole where
  | system
  | user
deriving DecidableEq

structure ChatMessage where
  role : ChatRole
  content : String

structure ChatRequest where
  provider : Option String
  model : Option String
  messages : List ChatMessage
  maxTokens : Option ℕ
  useMemory : Bool

structure ChatResponse where
  provider : String
  model : Option String
  content : String
  usage : Option TokenUsage

/-- The provider and the executor. What they answer may differ from call to call. -/
structure AgentEnvironment where
  tools : List AgentToolSpec
  chat : ℕ → ChatRequest → Except String ChatResponse
  execute : ℕ → String → Value → Except String Value

/-- What the loop does to the outside, in order. -/
inductive AgentAct where
  | emit (event : AgentRunEventKind)
  | chat (request : ChatRequest)
  | execute (tool : String) (arguments : Value) (result : Except String Value)
  | checkpointStep (step : AgentStepResult)

def mergeUsage (total additional : Option TokenUsage) : Option TokenUsage :=
  match additional with
  | none => total
  | some additional =>
    let total := total.getD { inputTokens := 0, outputTokens := 0 }
    some
      { inputTokens := saturatingAdd total.inputTokens additional.inputTokens
        outputTokens := saturatingAdd total.outputTokens additional.outputTokens }

/-- A text, or its end with a mark. -/
def boundedText (encoded : String) (maxChars : ℕ) : String :=
  if charCount encoded ≤ maxChars then encoded
  else String.ofList (encoded.toList.drop (charCount encoded - maxChars)) ++
    "…[older context truncated]"

/-- A tool result, or the start of its text with a mark. -/
def boundValue (codec : AgentCodec) (value : Value) : Value :=
  if charCount (codec.valueText value) ≤ maxToolResultChars then value
  else .string (String.ofList ((codec.valueText value).toList.take maxToolResultChars) ++
    "…[tool result truncated]")

/-- What a definition, or its absence, fixes for a run. -/
structure LoopLimits where
  tools : List AgentToolSpec
  maxSteps : ℕ
  maxContextChars : ℕ
  maxOutputTokens : ℕ
  instructions : String

def loopLimits (tools : List AgentToolSpec) : Option AgentDefinition → LoopLimits
  | some definition =>
    { tools := tools.filter fun tool => definition.toolAllowlist.contains tool.name
      maxSteps := definition.maxToolSteps, maxContextChars := definition.maxContextChars
      maxOutputTokens := definition.maxOutputTokens, instructions := definition.instructions }
  | none =>
    { tools, maxSteps := maxAgentSteps, maxContextChars := maxAgentContextChars,
      maxOutputTokens := 1024, instructions := "" }

/-- The loop between two rounds. -/
structure LoopState where
  results : List AgentStepResult
  providerName : String
  model : Option String
  usage : Option TokenUsage
  chats : ℕ
  executions : ℕ

/-- How the loop ends: with its last state, an action to propose and an answer, if any. -/
structure LoopEnd where
  state : LoopState
  proposedAction : Option AgentProposedAction
  directAnswer : Option String

/-- The answer that needs no synthesis: there is nothing to propose and it is not blank. -/
def LoopEnd.answer (last : LoopEnd) : Option String :=
  if last.proposedAction.isNone then last.directAnswer.filter fun answer => trim answer ≠ ""
  else none

section
variable (codec : AgentCodec) (env : AgentEnvironment) (request : AgentRequest)
  (limits : LoopLimits)

def planningPrompt (results : List AgentStepResult) : String :=
  "Objective: " ++ request.objective ++ "\nPrior observations: " ++
    boundedText (codec.stepsText results) limits.maxContextChars ++
    "\nChoose the next tool, or return the final answer if the objective is resolved."

def planningRequest (results : List AgentStepResult) : ChatRequest :=
  { provider := request.provider, model := request.model
    messages :=
      [⟨.system, Planner.systemPromptFor codec limits.tools 1 (limits.instructions ++
          " Choose only the single next best tool after considering the supplied observations.")⟩,
        ⟨.user, planningPrompt codec request limits results⟩]
    maxTokens := some limits.maxOutputTokens, useMemory := false }

def synthesisRequest (last : LoopEnd) : ChatRequest :=
  { provider := request.provider, model := request.model
    messages :=
      [⟨.system, "Answer the user's objective using only the supplied FocalDesk observations. " ++
          "If a proposed action is present, explain that it is awaiting explicit user confirmation " ++
          "and has not executed. Be concise and state when the evidence is insufficient."⟩,
        ⟨.user, "Objective: " ++ request.objective ++ "\nObservations: " ++
          boundedText (codec.stepsText last.state.results) limits.maxContextChars ++
          "\nProposed action: " ++ codec.proposalText last.proposedAction⟩]
    maxTokens := some limits.maxOutputTokens, useMemory := false }

/-- The rounds of the loop that are left. The planner has checked that the tool of a step is in
the catalogue, so the lookup does not fail. -/
def planningLoop : ℕ → LoopState → List AgentAct × Except String LoopEnd
  | 0, state => ([], .ok { state, proposedAction := none, directAnswer := none })
  | rounds + 1, state =>
    let chat := planningRequest codec request limits state.results
    let start := [.emit (.planning (state.results.length + 1)), .chat chat]
    match env.chat state.chats chat with
    | .error _ => (start, .error "agent planning request failed")
    | .ok planning =>
      let state :=
        { state with usage := mergeUsage state.usage planning.usage
                     providerName := planning.provider, model := planning.model
                     chats := state.chats + 1 }
      match Planner.parseWithLimit codec planning.content limits.tools 1 with
      | .error error => (start, .error error)
      | .ok plan =>
        match plan.steps with
        | [] => (start, .ok { state, proposedAction := none, directAnswer := plan.answer })
        | step :: _ =>
          match findTool limits.tools step.tool with
          | none => (start, .error "planner validated tool catalog membership")
          | some tool =>
            if tool.mutating then
              (start ++ [.emit (.actionProposed step.tool)],
                .ok { state, proposedAction := some ⟨step.tool, step.arguments⟩,
                      directAnswer := none })
            else
              let number := state.results.length + 1
              let result := env.execute state.executions step.tool step.arguments
              let executed := start ++
                [.emit (.toolStarted number step.tool), .execute step.tool step.arguments result]
              match result with
              | .error _ => (executed, .error ("agent tool " ++ step.tool ++ " failed"))
              | .ok value =>
                let stepResult : AgentStepResult :=
                  { tool := step.tool, arguments := step.arguments
                    result := boundValue codec value }
                let rest := planningLoop rounds
                  { state with results := state.results ++ [stepResult]
                               executions := state.executions + 1 }
                (executed ++ [.checkpointStep stepResult,
                  .emit (.toolCompleted number step.tool)] ++ rest.1, rest.2)

/-- The response made of a direct answer, or else of one more request. -/
def synthesize (last : LoopEnd) : List AgentAct × Except String AgentResponse :=
  match last.answer with
  | some answer =>
    ([], .ok
      { runId := "", provider := last.state.providerName, model := last.state.model, answer,
        usage := last.state.usage, steps := last.state.results, proposedAction := none,
        confirmation := none })
  | none =>
    ([.chat (synthesisRequest codec request limits last)],
      match env.chat last.state.chats (synthesisRequest codec request limits last) with
      | .error _ => .error "agent synthesis request failed"
      | .ok synthesis => .ok
        { runId := "", provider := synthesis.provider, model := synthesis.model,
          answer := synthesis.content, usage := mergeUsage last.state.usage synthesis.usage,
          steps := last.state.results, proposedAction := last.proposedAction,
          confirmation := none })

end

/-- `Agent::run_iterative_from_checkpoint` -/
def runIterativeFromCheckpoint (codec : AgentCodec) (env : AgentEnvironment)
    (request : AgentRequest) (definition : Option AgentDefinition)
    (initialResults : List AgentStepResult) : List AgentAct × Except String AgentResponse :=
  let limits := loopLimits env.tools definition
  if limits.tools.isEmpty then ([], .error "no agent tools are available")
  else if limits.maxSteps < initialResults.length then
    ([], .error "agent checkpoint exceeds the configured tool-step budget")
  else
    let start : LoopState :=
      { results := initialResults, providerName := request.provider.getD "",
        model := request.model, usage := none, chats := 0, executions := 0 }
    let loop := planningLoop codec env request limits (limits.maxSteps - initialResults.length) start
    match loop.2 with
    | .error error => (loop.1, .error error)
    | .ok last =>
      let synthesis := synthesize codec env request limits last
      (loop.1 ++ synthesis.1, synthesis.2)

end FocalDesk
