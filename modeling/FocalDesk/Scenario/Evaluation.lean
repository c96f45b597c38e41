import FocalDesk.Context.Broker

/-! Scenario Lab fixtures and their validation. -/
namespace FocalDesk
open Library

def scenarioVersion : ℕ := 1

def maxScenarioBytes : ℕ := 192 * 1024

def maxScenarioSteps : ℕ := 128

structure ScenarioConnectorPolicy where
  enabled : Bool
  sources : BTreeMap EventSource (List String)

structure ScenarioInitialState where
  eventFabricConnected : Bool
  routinesSuspended : Bool
  sourceFields : BTreeMap EventSource (List String)
  connectors : BTreeMap String ScenarioConnectorPolicy
  agentTools : BTreeMap String (List String)
  tokenBudget : ℕ

def ScenarioInitialState.default : ScenarioInitialState :=
  { eventFabricConnected := true, routinesSuspended := false, sourceFields := ∅, connectors := ∅,
    agentTools := ∅, tokenBudget := 10000 }

inductive ScenarioLeaseState where
  | active
  | missing
  | expired
  | revoked
deriving DecidableEq

/-- The name that the derived `Debug` prints. -/
def ScenarioLeaseState.debug : ScenarioLeaseState → String
  | .active => "Active"
  | .missing => "Missing"
  | .expired => "Expired"
  | .revoked => "Revoked"

inductive ScenarioStep where
  | voicePhrase (text : String) (expectedDestination : Option String)
  | connectorEvent (connectorId : String) (source : EventSource) (payload : Value)
  | contextMetadata (kind : ContextKind) (provenance : String)
      (sensitivity : ContextSensitivity) (fields : List String)
  | routineEvent (event : RoutineEvent)
  | agentPlan (agentId : String) (tools : List String)
      (proposedMutation confirmationPresent : Bool) (lease : ScenarioLeaseState)
      (estimatedTokens : ℕ)
  | failureInjection (component mode : String)
  | restart (component : String)
  | observedTimeline (title state provenance : String)

structure ScenarioFixture where
  scenarioVersion : ℕ
  name : String
  description : String
  synthetic : Bool
  initial : ScenarioInitialState
  steps : List ScenarioStep
  expectedViolationCodes : List String

/-- The serializer of values and of fixtures. -/
structure ScenarioCodec extends ValueCodec where
  /-- The length of `serde_json::to_vec` of a fixture. -/
  fixtureLen : ScenarioFixture → ℕ

def normalizeFields (fields : List String) : Except String (List String) := do
  let fields := sortDedup fields
  bailIf (fields = [] ∨ 64 < fields.length ∨ ∃ field ∈ fields, field = "" ∨ 80 < byteLen field
      ∨ allChars (fun c => isAsciiAlphanumeric c || c == '_') field = false)
    "scenario field list is invalid or out of bounds"
  return fields

def validateIdentifier (value kind : String) : Except String Unit :=
  bailIf (isIdentifier 80 value = false) (kind ++ " identifier is invalid")

def normalizeIdentifierList (maximum : ℕ) (values : List String) :
    Except String (List String) := do
  let values := sortDedup values
  bailIf (maximum < values.length) "scenario identifier list exceeds its bound"
  checkAll (fun value => validateIdentifier value "scenario") values
  return values

def validateText (value : String) (maximum : ℕ) (kind : String) : Except String Unit :=
  bailIf (trim value = "" ∨ maximum < charCount value)
    ("scenario " ++ kind ++ " is empty or out of bounds")

/-- The fields of each source, normalized and supported. -/
def normalizeSources (error : String) (sources : BTreeMap EventSource (List String)) :
    Except String (BTreeMap EventSource (List String)) := do
  checkAll (fun entry : EventSource × List String => do
    let fields ← normalizeFields entry.2
    bailIf (∃ field ∈ fields, field ∉ supportedEventFields entry.1) error) sources.toList
  return sources.map fun _ fields => sortDedup fields

def validateStep (codec : ScenarioCodec) : ScenarioStep → Except String ScenarioStep
  | .voicePhrase text expectedDestination => do
    validateText text 500 "voice phrase"
    checkAll (fun destination => validateText destination 100 "voice destination")
      expectedDestination.toList
    return .voicePhrase text expectedDestination
  | .connectorEvent connectorId source payload => do
    validateIdentifier connectorId "connector"
    bailIf (payload.asObject = none ∨ 16 * 1024 < codec.len payload)
      "scenario connector payload must be a JSON object no larger than 16 KiB"
    return .connectorEvent connectorId source payload
  | .contextMetadata kind provenance sensitivity fields => do
    validateText provenance 200 "context provenance"
    let fields ← normalizeFields fields
    bailIf (32 < fields.length) "scenario context metadata may declare at most 32 field names"
    return .contextMetadata kind provenance sensitivity fields
  | .routineEvent event => do
    validateText event.value 2000 "routine value"
    validateText event.source 200 "routine source"
    return .routineEvent event
  | .agentPlan agentId tools proposedMutation confirmationPresent lease estimatedTokens => do
    validateIdentifier agentId "agent"
    let tools ← normalizeIdentifierList 64 tools
    bailIf (100000000 < estimatedTokens) "scenario token estimate is out of bounds"
    return .agentPlan agentId tools proposedMutation confirmationPresent lease estimatedTokens
  | .failureInjection component mode => do
    validateText component 100 "failure component"
    validateText mode 100 "failure mode"
    return .failureInjection component mode
  | .restart component => do
    validateText component 100 "restart component"
    return .restart component
  | .observedTimeline title state provenance => do
    validateText title 120 "timeline title"
    validateText state 80 "timeline state"
    validateText provenance 200 "timeline provenance"
    return .observedTimeline title state provenance

def validateSteps (codec : ScenarioCodec) : List ScenarioStep → Except String (List ScenarioStep)
  | [] => .ok []
  | step :: steps => do
    let step ← validateStep codec step
    let steps ← validateSteps codec steps
    return step :: steps

/-- The connector policies, with their sources normalized. -/
def normalizeConnectors (connectors : BTreeMap String ScenarioConnectorPolicy) :
    Except String (BTreeMap String ScenarioConnectorPolicy) := do
  checkAll (fun entry : String × ScenarioConnectorPolicy => do
    validateIdentifier entry.1 "connector"
    let _ ← normalizeSources "scenario connector schema contains an unsupported field"
      entry.2.sources) connectors.toList
  return connectors.map fun _ policy =>
    { policy with sources := policy.sources.map fun _ fields => sortDedup fields }

def normalizeAgents (agentTools : BTreeMap String (List String)) :
    Except String (BTreeMap String (List String)) := do
  checkAll (fun entry : String × List String => do
    validateIdentifier entry.1 "agent"
    let _ ← normalizeIdentifierList 64 entry.2) agentTools.toList
  return agentTools.map fun _ tools => sortDedup tools

/-- Validation also sorts and deduplicates the lists of the fixture. -/
def ScenarioFixture.validate (codec : ScenarioCodec) (fixture : ScenarioFixture) :
    Except String ScenarioFixture := do
  bailIf (fixture.scenarioVersion ≠ FocalDesk.scenarioVersion)
    "unsupported Scenario Lab fixture version"
  bailIf (fixture.synthetic = false) "Scenario Lab fixtures must be explicitly marked synthetic"
  bailIf (trim fixture.name = ""
      ∨ 100 < charCount fixture.name
      ∨ 500 < charCount fixture.description
      ∨ fixture.steps.isEmpty = true
      ∨ maxScenarioSteps < fixture.steps.length
      ∨ ¬ (1 ≤ fixture.initial.tokenBudget ∧ fixture.initial.tokenBudget ≤ 100000000))
    "Scenario Lab fixture metadata or limits are out of bounds"
  let expectedViolationCodes ← normalizeIdentifierList 64 fixture.expectedViolationCodes
  let sourceFields ← normalizeSources "scenario source policy contains an unsupported field"
    fixture.initial.sourceFields
  let connectors ← normalizeConnectors fixture.initial.connectors
  let agentTools ← normalizeAgents fixture.initial.agentTools
  let steps ← validateSteps codec fixture.steps
  let fixture := { fixture with
    expectedViolationCodes, steps
    initial := { fixture.initial with sourceFields, connectors, agentTools } }
  bailIf (maxScenarioBytes < codec.fixtureLen fixture) "Scenario Lab fixture exceeds 192 KiB"
  return fixture

/-! Validation of the steps. -/

section
variable {codec : ScenarioCodec} {steps valid : List ScenarioStep} {step : ScenarioStep}

/-- Every validated step comes out of validation. -/
theorem validateSteps_mem (h : validateSteps codec steps = .ok valid) (hs : step ∈ valid) :
    ∃ raw, validateStep codec raw = .ok step := by
  induction steps generalizing valid with
  | nil =>
    cases h
    cases hs
  | cons raw steps ih =>
    simp only [validateSteps, bind_eq_ok, pure_eq_ok] at h
    obtain ⟨fst, hf, rest, hr, rfl⟩ := h
    rcases List.mem_cons.mp hs with rfl | hs
    · exact ⟨raw, hf⟩
    · exact ih hr hs

/-- What validation promises about a step, as far as the evaluation relies on it. -/
def ScenarioStep.WellFormed (codec : ScenarioCodec) : ScenarioStep → Prop
  | .connectorEvent connectorId _ payload => isIdentifier 80 connectorId = true ∧
    (∃ object, payload.asObject = some object) ∧ codec.len payload ≤ maxPayloadBytes
  | .routineEvent event => event.validate = .ok ()
  | _ => True

theorem wellFormed_of_validateStep {raw : ScenarioStep} (h : validateStep codec raw = .ok step) :
    step.WellFormed codec := by
  cases raw with
  | connectorEvent cid src pl =>
    simp only [validateStep, validateIdentifier, unit_bind_eq_ok, bailIf_eq_ok, pure_eq_ok,
      not_or, Bool.not_eq_false, not_lt] at h
    obtain ⟨hid, ⟨ho, hl⟩, rfl⟩ := h
    exact ⟨hid, Option.ne_none_iff_exists'.mp ho, hl⟩
  | routineEvent ev =>
    simp only [validateStep, validateText, unit_bind_eq_ok, bailIf_eq_ok, pure_eq_ok, not_or,
      not_lt] at h
    obtain ⟨⟨hva, hv⟩, ⟨hsr, hs⟩, rfl⟩ := h
    exact RoutineEvent.validate_eq_ok.mpr ⟨hva, hv, hsr, hs⟩
  | voicePhrase text exp =>
    simp only [validateStep, unit_bind_eq_ok, pure_eq_ok] at h
    obtain ⟨-, -, rfl⟩ := h
    trivial
  | contextMetadata kind provenance sensitivity fs =>
    simp only [validateStep, bind_eq_ok, pure_eq_ok] at h
    obtain ⟨-, -, -, -, -, -, rfl⟩ := h
    trivial
  | agentPlan aid ts proposedMutation confirmationPresent ls estimatedTokens =>
    simp only [validateStep, bind_eq_ok, pure_eq_ok] at h
    obtain ⟨-, -, -, -, -, -, rfl⟩ := h
    trivial
  | failureInjection comp mode =>
    simp only [validateStep, unit_bind_eq_ok, pure_eq_ok] at h
    obtain ⟨-, -, rfl⟩ := h
    trivial
  | restart comp =>
    simp only [validateStep, unit_bind_eq_ok, pure_eq_ok] at h
    obtain ⟨-, rfl⟩ := h
    trivial
  | observedTimeline ttl st provenance =>
    simp only [validateStep, unit_bind_eq_ok, pure_eq_ok] at h
    obtain ⟨-, -, -, rfl⟩ := h
    trivial

theorem ScenarioFixture.validate_steps {fixture valid : ScenarioFixture}
    (h : fixture.validate codec = .ok valid) : ∀ step ∈ valid.steps, step.WellFormed codec := by
  simp only [ScenarioFixture.validate, bind_eq_ok, pure_eq_ok] at h
  obtain ⟨-, -, -, -, -, -, codes, -, sources, -, cons, -, ags, -, steps, hs, -, -, rfl⟩ := h
  intro step hst
  obtain ⟨raw, hr⟩ := validateSteps_mem hs hst
  exact wellFormed_of_validateStep hr

end

/-! The Scenario Lab: what it checks at each step of a fixture. -/

inductive IntentDestination where
  | chat
  | agent (agentId : String)
  | workflow (workflowId : String)
  | suggestionInbox
deriving DecidableEq

structure IntentRoute where
  destination : IntentDestination
  requiredContext : List ContextKind
  reason : String
  ambiguous : Bool

def routeIntent (text : String) : IntentRoute :=
  let text := toAsciiLowercase (trim text)
  if containsText text "next meeting" ∨ containsText text "prepare for my meeting" then
    { destination := .workflow "meeting-preparation", requiredContext := [.calendar],
      reason := "meeting preparation phrase", ambiguous := false }
  else if containsText text "fix what" ∨ containsText text "what's wrong here"
      ∨ containsText text "what is wrong here" then
    { destination := .workflow "workspace-troubleshooter",
      requiredContext := [.activeWindow, .workspace],
      reason := "workspace troubleshooting phrase", ambiguous := false }
  else if containsText text "summarize this" ∨ containsText text "explain this" then
    { destination := .agent "accessibility", requiredContext := [.activeWindow, .conversation],
      reason := "current-context explanation phrase", ambiguous := false }
  else
    { destination := .chat, requiredContext := [], reason := "no deterministic route matched",
      ambiguous := true }

/-- `destination_name` -/
def IntentDestination.name : IntentDestination → String
  | .chat => "chat"
  | .agent agentId => "agent:" ++ agentId
  | .workflow workflowId => "workflow:" ++ workflowId
  | .suggestionInbox => "suggestion_inbox"

structure ScenarioCheck where
  stepIndex : ℕ
  code : String
  passed : Bool
  summary : String

structure ScenarioRouteObservation where
  stepIndex : ℕ
  destination : String
  reason : String

structure ScenarioReport where
  name : String
  passed : Bool
  checks : List ScenarioCheck
  observedViolationCodes : List String
  expectedViolationCodes : List String
  unexpectedViolationCodes : List String
  missingViolationCodes : List String
  routes : List ScenarioRouteObservation
  simulatedRoutineMatches : ℕ
  estimatedTokens : ℕ
  providerCalls : ℕ
  toolExecutions : ℕ
  liveMutations : ℕ

/-- What the loop over the steps has gathered. -/
structure ScenarioProgress where
  checks : List ScenarioCheck
  routes : List ScenarioRouteObservation
  estimatedTokens : ℕ
  routineMatches : ℕ
  injectedFailures : BTreeMap String String
  routines : RoutineState

/-- The clock and the random identifiers that the routine engine reads at a step. -/
structure ScenarioClock where
  now : ℕ → ℕ
  ids : ℕ → String → String

/-- The failures that are injected after a step. -/
def ScenarioStep.inject (failures : BTreeMap String String) :
    ScenarioStep → BTreeMap String String
  | .failureInjection component mode => failures.insert component mode
  | .restart component =>
    if component = "all" ∨ component = "ai-service" then ∅ else failures.erase component
  | _ => failures

/-- The fields that a payload has. -/
def payloadFields (payload : Value) : List String :=
  (payload.asObject.getD []).map Prod.fst

/-- The checks of a connector event. -/
def connectorChecks (initial : ScenarioInitialState) (failures : BTreeMap String String) (index : ℕ)
    (connectorId : String) (source : EventSource) (payload : Value) :
    List ScenarioCheck :=
  let allowed := initial.sourceFields[source]?
  let connector := initial.connectors[connectorId]?
  let connectorFields := connector.bind fun policy => policy.sources[source]?
  [⟨index, "event_fabric_disconnected", initial.eventFabricConnected,
      "connector event requires connected Event Fabric"⟩,
    ⟨index, "source_without_consent", allowed.any fun fields => !fields.isEmpty,
      "source=" ++ source.asStr ++ " must have an enabled disclosure policy"⟩,
    ⟨index, "connector_disabled", connector.any ScenarioConnectorPolicy.enabled,
      "connector=" ++ connectorId ++ " must be enabled"⟩,
    ⟨index, "connector_unavailable",
      decide ("connector" ∉ failures) && decide (connectorId ∉ failures),
      "connector=" ++ connectorId ++ " must not have an injected failure"⟩,
    ⟨index, "connector_source_undeclared", connectorFields.isSome,
      "connector=" ++ connectorId ++ " must declare source=" ++ source.asStr⟩,
    ⟨index, "payload_missing_disclosed_field",
      allowed.any fun fields => fields.any fun field => decide (field ∈ payloadFields payload),
      "payload must contain at least one source-disclosed field"⟩,
    ⟨index, "payload_disclosed_field_non_scalar",
      allowed.any fun fields => payload.asObject.isSome &&
        fields.all fun field => (payload.get field).all isScalar,
      "source-disclosed payload fields must be scalar"⟩,
    ⟨index, "payload_outside_connector_schema",
      connectorFields.any fun fields =>
        (payloadFields payload).all fun field => decide (field ∈ fields),
      "payload fields must be declared by the connector"⟩]

/-- The checks of an agent's plan, after its tokens were added. -/
def planChecks (initial : ScenarioInitialState) (failures : BTreeMap String String) (index : ℕ)
    (agentId : String) (tools : List String) (proposedMutation confirmationPresent : Bool)
    (lease : ScenarioLeaseState) (estimatedTokens : ℕ) : List ScenarioCheck :=
  [⟨index, "tool_outside_allowlist",
      initial.agentTools[agentId]?.any fun allowed => tools.all fun tool => decide (tool ∈ allowed),
      "agent=" ++ agentId ++ " plan tools must be allowlisted"⟩,
    ⟨index, "provider_unavailable", decide ("provider" ∉ failures),
      "agent planning requires an available shadow provider"⟩,
    ⟨index, "inactive_capability_lease", decide (lease = .active),
      "lease state is " ++ lease.debug⟩,
    ⟨index, "mutation_without_confirmation", !proposedMutation || confirmationPresent,
      "mutating plans require an explicit native confirmation boundary"⟩,
    ⟨index, "token_budget_exceeded", decide (estimatedTokens ≤ initial.tokenBudget),
      "estimated_tokens=" ++ toString estimatedTokens ++ " budget=" ++
        toString initial.tokenBudget⟩]

/-- One turn of the loop of `evaluate_scenario`. -/
def evaluateStep (clock : ScenarioClock) (initial : ScenarioInitialState) (index : ℕ)
    (progress : ScenarioProgress) (step : ScenarioStep) : Except String ScenarioProgress :=
  match step with
  | .voicePhrase text expectedDestination =>
    let route := routeIntent text
    let destination := route.destination.name
    .ok { progress with
      routes := progress.routes ++ [⟨index, destination, route.reason⟩]
      checks := progress.checks ++ expectedDestination.toList.map fun expected =>
        ⟨index, "voice_route_mismatch", decide (destination = expected),
          "expected=" ++ expected ++ " observed=" ++ destination⟩ }
  | .connectorEvent connectorId source payload =>
    .ok { progress with
      checks := progress.checks ++
        connectorChecks initial progress.injectedFailures index connectorId source payload }
  | .contextMetadata _ _ _ fields =>
    .ok { progress with
      checks := progress.checks ++ [⟨index, "context_metadata_unbounded",
        decide (fields.length ≤ 32), "context fixtures contain field names only"⟩] }
  | .routineEvent event =>
    let (routines, result) := evaluate RoutineRegistry.builtIn progress.routines event true
      (clock.now index) (clock.ids index)
    result.map fun evaluations => { progress with
      routines
      routineMatches :=
        progress.routineMatches + (evaluations.filter RoutineEvaluation.isMatch).length
      checks := progress.checks ++ [⟨index, "routine_live_mutation",
        evaluations.all RoutineEvaluation.simulated, "routine evaluation must remain simulated"⟩] }
  | .agentPlan agentId tools proposedMutation confirmationPresent lease stepTokens =>
    let estimatedTokens := saturatingAdd progress.estimatedTokens stepTokens
    .ok { progress with
      estimatedTokens
      checks := progress.checks ++ planChecks initial progress.injectedFailures index agentId tools
        proposedMutation confirmationPresent lease estimatedTokens }
  | .failureInjection component mode =>
    .ok { progress with
      injectedFailures := step.inject progress.injectedFailures
      checks := progress.checks ++ [⟨index, "failure_injection_not_isolated", true,
        "isolated failure component=" ++ component ++ " mode=" ++ mode⟩] }
  | .restart component =>
    .ok { progress with
      injectedFailures := step.inject progress.injectedFailures
      checks := progress.checks ++
        [⟨index, "restart_not_isolated", true, "shadow restart component=" ++ component⟩] }
  | .observedTimeline _ _ _ =>
    .ok { progress with
      checks := progress.checks ++ [⟨index, "observed_trace_mutation", true,
        "observed timeline entry is inert"⟩] }

def evaluateSteps (clock : ScenarioClock) (initial : ScenarioInitialState) :
    ℕ → List ScenarioStep → ScenarioProgress → Except String ScenarioProgress
  | _, [], progress => .ok progress
  | index, step :: steps, progress => do
    let progress ← evaluateStep clock initial index progress step
    evaluateSteps clock initial (index + 1) steps progress

def ScenarioProgress.start (initial : ScenarioInitialState) : ScenarioProgress :=
  { checks := [], routes := [], estimatedTokens := 0, routineMatches := 0, injectedFailures := ∅,
    routines := { RoutineState.default with suspended := initial.routinesSuspended } }

/-- The codes of the failed checks, as an ordered set. -/
def violationCodes (checks : List ScenarioCheck) : List String :=
  sortDedup ((checks.filter fun check => !check.passed).map ScenarioCheck.code)

def scenarioReport (fixture : ScenarioFixture) (progress : ScenarioProgress) : ScenarioReport :=
  let observed := violationCodes progress.checks
  let expected := sortDedup fixture.expectedViolationCodes
  let unexpected := observed.filter fun code => code ∉ expected
  let missing := expected.filter fun code => code ∉ observed
  { name := fixture.name, passed := unexpected.isEmpty && missing.isEmpty,
    checks := progress.checks, observedViolationCodes := observed,
    expectedViolationCodes := expected, unexpectedViolationCodes := unexpected,
    missingViolationCodes := missing, routes := progress.routes,
    simulatedRoutineMatches := progress.routineMatches,
    estimatedTokens := progress.estimatedTokens, providerCalls := 0, toolExecutions := 0,
    liveMutations := 0 }

def evaluateScenario (codec : ScenarioCodec) (clock : ScenarioClock) (fixture : ScenarioFixture) :
    Except String ScenarioReport := do
  let fixture ← fixture.validate codec
  let progress ← evaluateSteps clock fixture.initial 0 fixture.steps (.start fixture.initial)
  return scenarioReport fixture progress

end FocalDesk
