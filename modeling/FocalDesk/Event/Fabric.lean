import FocalDesk.Json
import FocalDesk.Routine.Engine

/-! Event sources, the fields each supports, and the disclosure policy of a source. -/
namespace FocalDesk
open Library

inductive EventSource where
  | desktop
  | calendar
  | notification
  | serviceHealth
  | workflow
deriving DecidableEq, Repr

namespace EventSource

instance : Ord EventSource := ⟨compareOn EventSource.ctorIdx⟩

instance : Std.TransOrd EventSource :=
  inferInstanceAs (Std.TransCmp (compareOn EventSource.ctorIdx))

instance : Std.LawfulEqOrd EventSource where
  eq_of_compare {a b} h := by
    cases a <;> cases b <;> first | rfl | cases h

def asStr : EventSource → String
  | desktop => "desktop"
  | calendar => "calendar"
  | notification => "notification"
  | serviceHealth => "service_health"
  | workflow => "workflow"

end EventSource

def supportedEventFields : EventSource → List String
  | .desktop => ["event", "app_id", "workspace_id", "window_title"]
  | .calendar => ["event", "title", "start_time", "end_time", "organizer"]
  | .notification => ["event", "app_id", "summary", "body", "urgency"]
  | .serviceHealth => ["event", "service", "state", "message", "failure_count"]
  | .workflow => ["event", "workflow_id", "run_id", "state", "error"]

/-! The disclosure policy of an event source. -/

structure EventSourcePolicy where
  source : EventSource
  enabled : Bool
  allowedFields : List String
  retentionSeconds : ℕ
  forwardToAttention : Bool
deriving DecidableEq

/-- Validation also sorts and deduplicates the allowed fields. -/
def EventSourcePolicy.validate (policy : EventSourcePolicy) : Except String EventSourcePolicy := do
  bailIf (¬ (60 ≤ policy.retentionSeconds ∧ policy.retentionSeconds ≤ 86400))
    "event retention must be between 60 and 86400 seconds"
  let allowedFields := sortDedup policy.allowedFields
  let supported := supportedEventFields policy.source
  bailIf (supported.length < allowedFields.length ∨ ∃ field ∈ allowedFields, field ∉ supported)
    "event policy contains unsupported fields"
  bailIf (policy.enabled = true ∧ allowedFields = [])
    "an enabled event source requires at least one disclosed field"
  return { policy with allowedFields }

theorem EventSourcePolicy.validate_eq_ok {pol valid : EventSourcePolicy} :
    pol.validate = .ok valid ↔
      (60 ≤ pol.retentionSeconds ∧ pol.retentionSeconds ≤ 86400) ∧
      (sortDedup pol.allowedFields).length ≤ (supportedEventFields pol.source).length ∧
      (∀ fld ∈ sortDedup pol.allowedFields, fld ∈ supportedEventFields pol.source) ∧
      (pol.enabled → sortDedup pol.allowedFields ≠ []) ∧
      valid = { pol with allowedFields := sortDedup pol.allowedFields } := by
  simp only [validate, unit_bind_eq_ok, bailIf_eq_ok, pure_eq_ok, not_or, not_lt, not_exists]
  constructor
  · rintro ⟨hk, ⟨hl, hf⟩, he, rfl⟩
    exact ⟨not_not.mp hk, hl, fun fld hm => not_not.mp fun h =>
      hf fld ⟨hm, h⟩, not_and.mp he, rfl⟩
  · rintro ⟨hk, hl, hf, he, rfl⟩
    exact ⟨not_not_intro hk, ⟨hl, fun fld h => h.2 (hf fld h.1)⟩, not_and.mpr he, rfl⟩

theorem EventSourcePolicy.validate_validate {pol valid : EventSourcePolicy}
    (h : pol.validate = .ok valid) : valid.validate = .ok valid := by
  obtain ⟨hk, hl, hf, he, rfl⟩ := validate_eq_ok.mp h
  refine validate_eq_ok.mpr ⟨hk, ?_⟩
  simp only [sortDedup_sortDedup]
  exact ⟨hl, hf, he, trivial⟩

/-! The event fabric: disclosure, the journal, and intake on the way to the routine engine. -/

def maxEvents : ℕ := 256

def maxPayloadBytes : ℕ := 16 * 1024

def EventSource.routineKind : EventSource → RoutineEventKind
  | .desktop => .desktop
  | .calendar => .calendar
  | .notification => .notification
  | .serviceHealth => .service
  | .workflow => .workflow

def allSources : List EventSource :=
  [.desktop, .calendar, .notification, .serviceHealth, .workflow]

structure EventEnvelope where
  id : String
  source : EventSource
  producer : String
  payload : Value
  summary : String
  createdAtUnix : ℕ
  expiresAtUnix : ℕ

/-- The producer as the routine engine sees it. -/
def eventLabel (source : EventSource) (producer : String) : String :=
  source.asStr ++ " via " ++ producer

def EventEnvelope.routineEvent (event : EventEnvelope) : RoutineEvent :=
  { kind := event.source.routineKind, value := event.summary,
    source := eventLabel event.source event.producer }

structure EventFabricState where
  connected : Bool
  policies : BTreeMap EventSource EventSourcePolicy
  events : BTreeMap String EventEnvelope

/-- A fabric, whose policies are as validation leaves them. -/
structure EventFabric where
  state : EventFabricState
  valid : ∀ (source : EventSource) policy, state.policies[source]? = some policy →
    policy.source = source ∧ policy.validate = .ok policy

/-- The serializer of JSON values. -/
structure ValueCodec where
  /-- The length of `serde_json::to_vec`. -/
  len : Value → ℕ
  /-- `Value::to_string`. -/
  text : Value → String
  len_event : len (.object [("event", .string "x")]) ≤ maxPayloadBytes

namespace EventFabric

def defaultPolicy (source : EventSource) : EventSourcePolicy :=
  { source, enabled := false, allowedFields := [], retentionSeconds := 3600,
    forwardToAttention := true }

def default : EventFabric where
  state :=
    { connected := true
      policies := allSources.foldl
        (fun policies source => policies.insert source (defaultPolicy source)) ∅
      events := ∅ }
  valid source policy h := by
    rcases getElem?_foldl_insert h with h | ⟨other, -, rfl, rfl⟩
    · simp at h
    · exact ⟨rfl, rfl⟩

def configure (fabric : EventFabric) (policy : EventSourcePolicy) : Except String EventFabric :=
  match h : policy.validate with
  | .error error => .error error
  | .ok valid => .ok
    { state := { fabric.state with policies := fabric.state.policies.insert valid.source valid }
      valid := by
        intro source other hget
        rw [Std.ExtTreeMap.getElem?_insert] at hget
        split at hget
        case isTrue heq =>
          cases hget
          exact ⟨Std.LawfulEqCmp.eq_of_compare heq, EventSourcePolicy.validate_validate h⟩
        case isFalse => exact fabric.valid source other hget }

def setConnected (fabric : EventFabric) (connected : Bool) : EventFabric :=
  { fabric with state := { fabric.state with connected } }

end EventFabric

def pruneEvents (now : ℕ) (state : EventFabricState) : EventFabricState :=
  { state with events := state.events.filter fun _ event => decide (now < event.expiresAtUnix) }

/-- The journal that `snapshot` reports. -/
def journal (now : ℕ) (state : EventFabricState) : BTreeMap String EventEnvelope :=
  (pruneEvents now state).events

def isScalar : Value → Bool
  | .null | .bool _ | .number _ | .string _ => true
  | .array _ | .object _ => false

def scalarText (codec : ValueCodec) : Value → String
  | .string value => value
  | value => codec.text value

/-- The allowed fields that the payload has. They come in the order of the policy, which is
sorted without repetitions, as the members of a JSON object are. -/
def disclose (payload : Value) : List String → Except String (List (String × Value))
  | [] => .ok []
  | field :: fields =>
    match payload.get field with
    | none => disclose payload fields
    | some value => do
      bailIf (isScalar value = false) ("event field '" ++ field ++ "' must be a scalar value")
      let rest ← disclose payload fields
      return (field, value) :: rest

def summaryText (codec : ValueCodec) (disclosed : List (String × Value)) : String :=
  String.intercalate "; " (disclosed.map fun (key, value) => key ++ "=" ++ scalarText codec value)

def eventSummary (codec : ValueCodec) (disclosed : List (String × Value)) : String :=
  String.ofList ((summaryText codec disclosed).toList.take 2000)

/-- `prepare_event`. The identifier of a new event is random. -/
def prepareEvent (codec : ValueCodec) (state : EventFabricState) (source : EventSource)
    (producer : String) (payload : Value) (now : ℕ) (id : String) :
    Except String (EventEnvelope × Bool) := do
  bailIf (state.connected = false) "event fabric is disconnected by the emergency switch"
  bailIf (trim producer = "" ∨ 200 < charCount producer)
    "event producer must contain 1-200 characters"
  bailIf (maxPayloadBytes < codec.len payload) "event payload exceeds 16 KiB"
  let policy ← okOr state.policies[source]? "unknown event source"
  bailIf (policy.enabled = false) "event source is disabled; enable its disclosure policy first"
  let _ ← okOr payload.asObject "event payload must be a JSON object"
  let disclosed ← disclose payload policy.allowedFields
  bailIf (disclosed.isEmpty = true) "event contains none of the source's disclosed fields"
  return ({ id, source, producer, payload := .object disclosed,
            summary := eventSummary codec disclosed, createdAtUnix := now,
            expiresAtUnix := now + policy.retentionSeconds }, policy.forwardToAttention)

/-- Evicts the oldest events until there is room for one more. Each round removes an event,
so their number bounds the rounds. -/
def evictEvents : ℕ → BTreeMap String EventEnvelope → BTreeMap String EventEnvelope
  | 0, events => events
  | fuel + 1, events =>
    if events.size < maxEvents then events
    else
      match minByKey EventEnvelope.createdAtUnix (events.toList.map Prod.snd) with
      | none => events
      | some oldest => evictEvents fuel (events.erase oldest.id)

/-- `EventFabric::ingest` -/
def ingest (codec : ValueCodec) (state : EventFabricState) (source : EventSource)
    (producer : String) (payload : Value) (now : ℕ) (id : String) :
    EventFabricState × Except String (EventEnvelope × Bool) :=
  let state := pruneEvents now state
  match prepareEvent codec state source producer payload now id with
  | .error error => (state, .error error)
  | .ok (event, forward) =>
    ({ state with events := (evictEvents state.events.size state.events).insert event.id event },
      .ok (event, forward))

structure EventDelivery where
  event : EventEnvelope
  evaluations : List RoutineEvaluation
  simulated : Bool

structure IntakeState where
  fabric : EventFabricState
  routines : RoutineState

/-- `AiService::ingest_event`: the event is in the journal before it is dispatched. -/
def ingestEvent (codec : ValueCodec) (registry : RoutineRegistry) (state : IntakeState)
    (source : EventSource) (producer : String) (payload : Value) (now : ℕ) (id : String)
    (ids : String → String) : IntakeState × Except String EventDelivery :=
  match ingest codec state.fabric source producer payload now id with
  | (fabric, .error error) => ({ state with fabric }, .error error)
  | (fabric, .ok (event, forward)) =>
    if forward then
      let (routines, result) := evaluate registry state.routines event.routineEvent false now ids
      ({ fabric, routines }, result.map fun evaluations =>
        { event, evaluations, simulated := false })
    else ({ state with fabric }, .ok { event, evaluations := [], simulated := false })

end FocalDesk
