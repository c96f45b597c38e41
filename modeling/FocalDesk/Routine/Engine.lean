import FocalDesk.Text
import FocalDesk.Library.BTreeMap

/-! Routine definitions, the events they react to and the routines the engine ships with. -/
namespace FocalDesk
open Library List

inductive RoutineEventKind where
  | desktop
  | calendar
  | notification
  | service
  | workflow
  | context
deriving DecidableEq, Repr

inductive AttentionPriority where
  | low
  | normal
  | high
deriving DecidableEq, Repr

inductive RoutinePromotion where
  | agent (agentId : String)
  | workflow (workflowId : String)
deriving DecidableEq, Repr

structure QuietHours where
  startHourUtc : ℕ
  endHourUtc : ℕ
deriving DecidableEq, Repr

/-- Equal bounds make the whole day quiet; otherwise the hours may wrap over midnight. -/
def QuietHours.contains (quiet : QuietHours) (hour : ℕ) : Bool :=
  if quiet.startHourUtc = quiet.endHourUtc then true
  else if quiet.startHourUtc < quiet.endHourUtc then
    decide (quiet.startHourUtc ≤ hour) && decide (hour < quiet.endHourUtc)
  else decide (quiet.startHourUtc ≤ hour) || decide (hour < quiet.endHourUtc)

structure RoutineDefinition where
  id : String
  name : String
  description : String
  eventKind : RoutineEventKind
  matchContains : String
  suggestionTitle : String
  suggestionBody : String
  priority : AttentionPriority
  promotion : RoutinePromotion
  cooldownSeconds : ℕ
  maxSuggestionsPerHour : ℕ
  quietHours : Option QuietHours
deriving DecidableEq

def RoutinePromotion.validate : RoutinePromotion → Except String Unit
  | .agent agentId => validateId agentId "agent"
  | .workflow workflowId => validateId workflowId "workflow"

def RoutineDefinition.validate (definition : RoutineDefinition) : Except String Unit := do
  validateId definition.id "routine"
  bailIf (trim definition.name = ""
      ∨ 120 < charCount definition.name
      ∨ trim definition.description = ""
      ∨ 500 < charCount definition.description
      ∨ trim definition.matchContains = ""
      ∨ 200 < charCount definition.matchContains
      ∨ trim definition.suggestionTitle = ""
      ∨ 120 < charCount definition.suggestionTitle
      ∨ trim definition.suggestionBody = ""
      ∨ 2000 < charCount definition.suggestionBody
      ∨ ¬ (30 ≤ definition.cooldownSeconds ∧ definition.cooldownSeconds ≤ 86400)
      ∨ ¬ (1 ≤ definition.maxSuggestionsPerHour ∧ definition.maxSuggestionsPerHour ≤ 20))
    "routine definition is out of bounds"
  definition.promotion.validate
  bailIf (∃ quiet ∈ definition.quietHours, 23 < quiet.startHourUtc ∨ 23 < quiet.endHourUtc)
    "quiet-hour values must be between 0 and 23 UTC"

structure RoutineEvent where
  kind : RoutineEventKind
  value : String
  source : String

def RoutineEvent.validate (event : RoutineEvent) : Except String Unit :=
  bailIf (trim event.value = ""
      ∨ 2000 < charCount event.value
      ∨ trim event.source = ""
      ∨ 200 < charCount event.source)
    "routine event is out of bounds"

theorem RoutineEvent.validate_eq_ok {ev : RoutineEvent} : ev.validate = .ok () ↔
    trim ev.value ≠ "" ∧ charCount ev.value ≤ 2000 ∧
      trim ev.source ≠ "" ∧ charCount ev.source ≤ 200 := by
  simp only [validate, bailIf_eq_ok, not_or, not_lt, ne_eq]

def builtInRoutines : List RoutineDefinition :=
  [{ id := "morning-briefing", name := "Morning briefing",
     description := "Offers the existing morning briefing workflow after a typed morning event.",
     eventKind := .context, matchContains := "morning",
     suggestionTitle := "Prepare a morning briefing?",
     suggestionBody := "A morning context event arrived: \x7bevent\x7d", priority := .normal,
     promotion := .workflow "morning-briefing", cooldownSeconds := 14400,
     maxSuggestionsPerHour := 1, quietHours := some ⟨22, 6⟩ },
    { id := "meeting-preparation", name := "Meeting preparation",
      description := "Offers meeting preparation when an explicitly supplied calendar event mentions a meeting.",
      eventKind := .calendar, matchContains := "meeting",
      suggestionTitle := "Prepare for the meeting?",
      suggestionBody := "Calendar context indicates: \x7bevent\x7d", priority := .normal,
      promotion := .workflow "meeting-preparation", cooldownSeconds := 1800,
      maxSuggestionsPerHour := 2, quietHours := some ⟨22, 6⟩ },
    { id := "repeated-service-failure", name := "Repeated service failure",
      description := "Offers troubleshooting when a typed service event reports repeated failure.",
      eventKind := .service, matchContains := "repeated failure",
      suggestionTitle := "Investigate repeated service failures?",
      suggestionBody := "Service health reported: \x7bevent\x7d", priority := .high,
      promotion := .workflow "workspace-troubleshooter", cooldownSeconds := 900,
      maxSuggestionsPerHour := 3, quietHours := none }]

/-- The three long texts of a definition only have to be within their bounds. -/
theorem RoutineDefinition.validate_of_texts {defn : RoutineDefinition}
    (ht : ∀ text ∈ [(defn.description, 500), (defn.suggestionTitle, 120),
      (defn.suggestionBody, 2000)], trim text.1 ≠ "" ∧ charCount text.1 ≤ text.2)
    (h : ({ defn with description := "-", suggestionTitle := "-", suggestionBody := "-" } :
      RoutineDefinition).validate = .ok ()) : defn.validate = .ok () := by
  simp only [forall_mem_cons] at ht
  obtain ⟨hd, hti, hbo, -⟩ := ht
  simp only [validate, unit_bind_eq_ok, bailIf_eq_ok, not_or, not_lt] at h ⊢
  obtain ⟨hid, ⟨hna, hn, -, -, hma, hm, -, -, -, -, hb⟩, hr⟩ := h
  exact ⟨hid, ⟨hna, hn, hd.1, hd.2, hma, hm, hti.1, hti.2, hbo.1, hbo.2, hb⟩, hr⟩

theorem builtInRoutines_valid :
    ∀ defn ∈ builtInRoutines, defn.validate = .ok () := by
  have ht : ∀ defn ∈ builtInRoutines, ∀ text ∈ [(defn.description, 500),
      (defn.suggestionTitle, 120), (defn.suggestionBody, 2000)],
        trim text.1 ≠ "" ∧ charCount text.1 ≤ text.2 := by
    simp only [builtInRoutines, forall_mem_cons]
    refine ⟨⟨?_, ?_, ?_, nofun⟩, ⟨?_, ?_, ?_, nofun⟩, ⟨?_, ?_, ?_, nofun⟩, nofun⟩ <;>
      exact text_within (by decide) (by decide)
  have hr : ∀ defn ∈ builtInRoutines, ({ defn with
      description := "-", suggestionTitle := "-", suggestionBody := "-" } :
        RoutineDefinition).validate = .ok () := by decide +kernel
  exact fun defn hm =>
    RoutineDefinition.validate_of_texts (ht defn hm) (hr defn hm)

/-- The definitions of an engine: all valid, under distinct identities. -/
structure RoutineRegistry where
  definitions : List RoutineDefinition
  valid : ∀ definition ∈ definitions, definition.validate = .ok ()
  distinct : (definitions.map RoutineDefinition.id).Nodup

def RoutineRegistry.builtIn : RoutineRegistry where
  definitions := builtInRoutines
  valid := builtInRoutines_valid
  distinct := by decide +kernel

def checkPackageRoutine (definition : RoutineDefinition) : Except String Unit := do
  definition.validate
  bailIf (definition.id ∈ builtInRoutines.map RoutineDefinition.id)
    "package routine conflicts with a built-in routine"

/-- The checks of `replace_package_definitions` -/
def checkPackageRoutines (package : List RoutineDefinition) : Except String Unit := do
  checkAll checkPackageRoutine package
  bailIf (¬ (package.map RoutineDefinition.id).Nodup) "package routine ids must be unique"

theorem checkPackageRoutines_eq_ok {pkg : List RoutineDefinition} :
    checkPackageRoutines pkg = .ok () ↔
      (∀ defn ∈ pkg, defn.validate = .ok () ∧ defn.id ∉ builtInRoutines.map RoutineDefinition.id) ∧
      (pkg.map RoutineDefinition.id).Nodup := by
  simp only [checkPackageRoutines, unit_bind_eq_ok, checkAll_eq_ok, bailIf_eq_ok, not_not,
    checkPackageRoutine]

def replacePackageDefinitions (package : List RoutineDefinition) :
    Except String RoutineRegistry :=
  match h : checkPackageRoutines package with
  | .error error => .error error
  | .ok () => .ok
    { definitions := builtInRoutines ++ package
      valid := by
        intro definition hmem
        rcases List.mem_append.mp hmem with hmem | hmem
        · exact RoutineRegistry.builtIn.valid definition hmem
        · exact (((checkPackageRoutines_eq_ok).mp h).1 definition hmem).1
      distinct := by
        obtain ⟨hpackage, hnodup⟩ := (checkPackageRoutines_eq_ok).mp h
        rw [List.map_append, List.nodup_append]
        refine ⟨RoutineRegistry.builtIn.distinct, hnodup, ?_⟩
        rintro id hbuiltIn other hother rfl
        obtain ⟨definition, hmem, rfl⟩ := List.mem_map.mp hother
        exact (hpackage definition hmem).2 hbuiltIn }

/-- What validation promises about the limits of a routine. -/
theorem RoutineDefinition.validate_limits {defn : RoutineDefinition}
    (h : defn.validate = .ok ()) :
    30 ≤ defn.cooldownSeconds ∧ defn.cooldownSeconds ≤ 86400 ∧ 1 ≤ defn.maxSuggestionsPerHour := by
  simp only [validate, unit_bind_eq_ok, bailIf_eq_ok, not_or, not_not] at h
  obtain ⟨-, ⟨-, -, -, -, -, -, -, -, -, -, hc, hm⟩, -⟩ := h
  exact ⟨hc.1, hc.2, hm.1⟩

/-! The routine engine: suggestions, its firing log and the calls on it. -/

def maxSuggestions : ℕ := 64

structure RoutineSuggestion where
  id : String
  routineId : String
  title : String
  body : String
  priority : AttentionPriority
  triggerKind : RoutineEventKind
  triggerSource : String
  triggerValue : String
  reason : String
  promotion : RoutinePromotion
  createdAtUnix : ℕ
  expiresAtUnix : ℕ
  dismissed : Bool
  promoted : Bool
deriving DecidableEq

structure RoutineEvaluation where
  routineId : String
  isMatch : Bool
  simulated : Bool
  reason : String
  suggestion : Option RoutineSuggestion

structure RoutineState where
  suspended : Bool
  suggestions : BTreeMap String RoutineSuggestion
  firings : BTreeMap String (List ℕ)
  dedupe : BTreeMap (String × String) ℕ

def RoutineState.default : RoutineState :=
  { suspended := false, suggestions := ∅, firings := ∅, dedupe := ∅ }

/-- The firings of one routine, latest last. -/
def RoutineState.recent (state : RoutineState) (routineId : String) : List ℕ :=
  state.firings[routineId]?.getD []

def pruneRoutines (now : ℕ) (state : RoutineState) : RoutineState :=
  { state with
    suggestions := state.suggestions.filter fun _ suggestion =>
      decide (now < suggestion.expiresAtUnix)
    firings := state.firings.map fun _ firings =>
      firings.filter fun fired => decide (now - fired < 86400)
    dedupe := state.dedupe.filter fun _ seen => decide (now - seen < 86400) }

def normalize (value : String) : String := toAsciiLowercase (joinWords value)

def hourUtc (now : ℕ) : ℕ := now / 3600 % 24

def isQuiet (definition : RoutineDefinition) (now : ℕ) : Bool :=
  definition.quietHours.any fun quiet => quiet.contains (hourUtc now)

def suppressionReason (state : RoutineState) (definition : RoutineDefinition) (event : RoutineEvent)
    (now : ℕ) : Option String :=
  if state.suspended then some "all routines are paused by the emergency switch"
  else if isQuiet definition now then some "suppressed during configured quiet hours (UTC)"
  else
    let recent := state.recent definition.id
    if recent.any (fun fired => decide (now - fired < definition.cooldownSeconds)) then
      some "suppressed by routine cooldown"
    else if definition.maxSuggestionsPerHour ≤
        (recent.filter fun fired => decide (now - fired < 3600)).length then
      some "suppressed by hourly suggestion limit"
    else if state.dedupe[(definition.id, normalize event.value)]?.any
        (fun seen => decide (now - seen < definition.cooldownSeconds)) then
      some "suppressed as a duplicate event"
    else none

def makeSuggestion (definition : RoutineDefinition) (event : RoutineEvent) (now : ℕ) (id : String)
    : RoutineSuggestion :=
  { id, routineId := definition.id, title := definition.suggestionTitle,
    body := replaceText definition.suggestionBody "\x7bevent\x7d" (trim event.value),
    priority := definition.priority, triggerKind := event.kind, triggerSource := event.source,
    triggerValue := event.value,
    reason := definition.name ++ " matched '" ++ definition.matchContains ++ "' from " ++
      event.source,
    promotion := definition.promotion, createdAtUnix := now, expiresAtUnix := now + 86400,
    dismissed := false, promoted := false }

def evaluation (definition : RoutineDefinition) (simulated : Bool) (reason : String)
    (suggestion : Option RoutineSuggestion) : RoutineEvaluation :=
  { routineId := definition.id, isMatch := suggestion.isSome, simulated, reason, suggestion }

/-- Evicts the oldest suggestions until there is room for one more. Each round removes a
suggestion, so their number bounds the rounds. -/
def evictSuggestions : ℕ → BTreeMap String RoutineSuggestion → BTreeMap String RoutineSuggestion
  | 0, suggestions => suggestions
  | fuel + 1, suggestions =>
    if suggestions.size < maxSuggestions then suggestions
    else
      match minByKey RoutineSuggestion.createdAtUnix (suggestions.toList.map Prod.snd) with
      | none => suggestions
      | some oldest => evictSuggestions fuel (suggestions.erase oldest.id)

def publish (state : RoutineState) (definition : RoutineDefinition) (event : RoutineEvent) (now : ℕ)
    (suggestion : RoutineSuggestion) : RoutineState :=
  { state with
    suggestions :=
      (evictSuggestions state.suggestions.size state.suggestions).insert suggestion.id suggestion
    firings := state.firings.insert definition.id (state.recent definition.id ++ [now])
    dedupe := state.dedupe.insert (definition.id, normalize event.value) now }

/-- One turn of the loop of `evaluate`. -/
def consider (state : RoutineState) (definition : RoutineDefinition) (event : RoutineEvent)
    (simulated : Bool) (now : ℕ) (id : String) : RoutineState × Option RoutineEvaluation :=
  if definition.eventKind ≠ event.kind then (state, none)
  else if containsText (toAsciiLowercase event.value) (toAsciiLowercase definition.matchContains)
      = false then
    (state, some (evaluation definition simulated "event did not match" none))
  else
    match suppressionReason state definition event now with
    | some reason => (state, some (evaluation definition simulated reason none))
    | none =>
      let suggestion := makeSuggestion definition event now id
      if simulated then
        (state, some (evaluation definition simulated "would publish a suggestion"
          (some suggestion)))
      else
        (publish state definition event now suggestion,
          some (evaluation definition simulated "published a suggestion; no action was started"
            (some suggestion)))

def considerAll (event : RoutineEvent) (simulated : Bool) (now : ℕ) (ids : String → String) :
    List RoutineDefinition → RoutineState → RoutineState × Except String (List RoutineEvaluation)
  | [], state => (state, .ok [])
  | definition :: definitions, state =>
    match definition.validate with
    | .error error => (state, .error error)
    | .ok () =>
      let (state, found) := consider state definition event simulated now (ids definition.id)
      let (state, result) := considerAll event simulated now ids definitions state
      (state, result.map fun evaluations => found.toList ++ evaluations)

/-- No definition of a registry stops the loop. -/
theorem considerAll_isOk {reg : RoutineRegistry} {defs : List RoutineDefinition}
    (hm : ∀ d ∈ defs, d ∈ reg.definitions) (ev : RoutineEvent)
    (simulated : Bool) (now : ℕ) (ids : String → String) (st : RoutineState) :
    ∃ evaluations, (considerAll ev simulated now ids defs st).2 = .ok evaluations := by
  induction defs generalizing st with
  | nil => exact ⟨[], rfl⟩
  | cons defn defs ih =>
    obtain ⟨hde, hd⟩ := forall_mem_cons.mp hm
    obtain ⟨evaluations, hr⟩ := ih hd (consider st defn ev simulated now (ids defn.id)).1
    simp only [considerAll, reg.valid defn hde, hr]
    exact ⟨_, rfl⟩

/-- `RoutineEngine::evaluate`. The identifiers of new suggestions are random. -/
def evaluate (registry : RoutineRegistry) (state : RoutineState) (event : RoutineEvent)
    (simulated : Bool) (now : ℕ) (ids : String → String) :
    RoutineState × Except String (List RoutineEvaluation) :=
  match event.validate with
  | .error error => (state, .error error)
  | .ok () => considerAll event simulated now ids registry.definitions (pruneRoutines now state)

def dismiss (state : RoutineState) (suggestionId : String) : RoutineState × Bool :=
  ({ state with
      suggestions := state.suggestions.modify suggestionId fun suggestion =>
        { suggestion with dismissed := true } },
    state.suggestions.contains suggestionId)

def claimPromotion (state : RoutineState) (now : ℕ) (suggestionId : String) :
    RoutineState × Except String RoutineSuggestion :=
  let state := pruneRoutines now state
  match state.suggestions[suggestionId]? with
  | none => (state, .error "unknown or expired routine suggestion")
  | some suggestion =>
    if suggestion.dismissed ∨ suggestion.promoted then
      (state, .error "routine suggestion is no longer actionable")
    else
      let suggestion := { suggestion with promoted := true }
      ({ state with suggestions := state.suggestions.insert suggestionId suggestion },
        .ok suggestion)

def releasePromotion (state : RoutineState) (suggestionId : String) : RoutineState :=
  { state with
    suggestions := state.suggestions.modify suggestionId fun suggestion =>
      { suggestion with promoted := false } }

/-! Calls and what they publish. -/

inductive RoutineOperation where
  | dispatch (event : RoutineEvent) (ids : String → String)
  | simulate (event : RoutineEvent) (ids : String → String)
  | setSuspended (suspended : Bool)
  | snapshot
  | dismiss (suggestionId : String)
  | claimPromotion (suggestionId : String)
  | releasePromotion (suggestionId : String)

structure RoutineCall where
  now : ℕ
  operation : RoutineOperation

/-- The suggestions among the evaluations that were returned. -/
def suggestionsOf : Except String (List RoutineEvaluation) → List RoutineSuggestion
  | .ok evaluations => evaluations.filterMap RoutineEvaluation.suggestion
  | .error _ => []

/-- The engine after a call, and the suggestions the call published. -/
def RoutineCall.perform (registry : RoutineRegistry) (state : RoutineState) (call : RoutineCall) :
    RoutineState × List RoutineSuggestion :=
  match call.operation with
  | .dispatch event ids =>
    let (state, result) := evaluate registry state event false call.now ids
    (state, suggestionsOf result)
  | .simulate event ids => ((evaluate registry state event true call.now ids).1, [])
  | .setSuspended suspended => ({ state with suspended }, [])
  | .snapshot => (pruneRoutines call.now state, [])
  | .dismiss suggestionId => ((dismiss state suggestionId).1, [])
  | .claimPromotion suggestionId => ((claimPromotion state call.now suggestionId).1, [])
  | .releasePromotion suggestionId => (releasePromotion state suggestionId, [])

/-- The engine after a list of calls. -/
def afterCalls (registry : RoutineRegistry) : RoutineState → List RoutineCall → RoutineState
  | state, [] => state
  | state, call :: calls => afterCalls registry (call.perform registry state).1 calls

/-- What a list of calls publishes. -/
def published (registry : RoutineRegistry) :
    RoutineState → List RoutineCall → List RoutineSuggestion
  | _, [] => []
  | state, call :: calls =>
    (call.perform registry state).2 ++ published registry (call.perform registry state).1 calls

end FocalDesk
