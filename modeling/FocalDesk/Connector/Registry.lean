import FocalDesk.Event.Fabric
import FocalDesk.Path

/-! Connector manifests and their validation. -/
namespace FocalDesk
open Library List

def connectorManifestVersion : ℕ := 1

structure ConnectorRuntimeManifest where
  executable : String
  args : List String
  pollIntervalSeconds : ℕ
  memoryMaxMib : ℕ
  cpuQuotaPercent : ℕ
deriving DecidableEq

def ConnectorRuntimeManifest.validate (runtime : ConnectorRuntimeManifest) :
    Except String Unit :=
  bailIf (isAbsolutePath runtime.executable = false
      ∨ 500 < byteLen runtime.executable
      ∨ 32 < runtime.args.length
      ∨ (∃ arg ∈ runtime.args, 500 < byteLen arg)
      ∨ ¬ (5 ≤ runtime.pollIntervalSeconds ∧ runtime.pollIntervalSeconds ≤ 86400)
      ∨ ¬ (16 ≤ runtime.memoryMaxMib ∧ runtime.memoryMaxMib ≤ 512)
      ∨ ¬ (1 ≤ runtime.cpuQuotaPercent ∧ runtime.cpuQuotaPercent ≤ 100))
    "connector runtime declaration is out of bounds"

structure ConnectorManifest where
  manifestVersion : ℕ
  id : String
  name : String
  description : String
  version : String
  eventSources : List EventSource
  eventFields : BTreeMap EventSource (List String)
  networkDomains : List String
  signingKeyHandle : Option String
  runtime : Option ConnectorRuntimeManifest
  builtIn : Bool
deriving DecidableEq

/-- Normalizes and checks the field schema of one declared source. -/
def validateSourceFields (eventFields : BTreeMap EventSource (List String)) (source : EventSource)
    : Except String (BTreeMap EventSource (List String)) := do
  let fields ← okOr eventFields[source]? "connector source has no field schema"
  let fields := sortDedup fields
  bailIf (fields = [] ∨ ∃ field ∈ fields, field ∉ supportedEventFields source)
    "connector schema contains unsupported fields"
  return eventFields.insert source fields

def validateDomain (domain : String) : Except String Unit :=
  bailIf (domain = ""
      ∨ 253 < byteLen domain
      ∨ '/' ∈ domain.toList
      ∨ ':' ∈ domain.toList
      ∨ allChars (fun c => isAsciiAlphanumeric c || c == '.' || c == '-') domain = false)
    "connector network domain is invalid"

def validateSigningKeyHandle (id handle : String) : Except String Unit :=
  let requiredPrefix := "connectors/" ++ id ++ "/"
  bailIf (200 < byteLen handle
      ∨ startsWith handle requiredPrefix = false
      ∨ byteLen handle = byteLen requiredPrefix
      ∨ allChars (fun c => isAsciiAlphanumeric c || c == '/' || c == '-' || c == '_' || c == '.')
          handle = false)
    "connector signing-key handle is invalid or outside its namespace"

/-- Validation also sorts and deduplicates the declared sources and fields. -/
def ConnectorManifest.validate (manifest : ConnectorManifest) :
    Except String ConnectorManifest := do
  bailIf (manifest.manifestVersion ≠ connectorManifestVersion)
    "unsupported connector manifest version"
  validateId manifest.id "connector"
  bailIf (trim manifest.name = ""
      ∨ 100 < charCount manifest.name
      ∨ 500 < charCount manifest.description
      ∨ trim manifest.version = ""
      ∨ 40 < charCount manifest.version
      ∨ manifest.eventSources = []
      ∨ 5 < manifest.eventSources.length
      ∨ 16 < manifest.networkDomains.length)
    "connector manifest is out of bounds"
  let eventSources := sortDedup manifest.eventSources
  let eventFields ← eventSources.foldlM validateSourceFields manifest.eventFields
  bailIf (∃ source ∈ eventFields.keys, source ∉ eventSources)
    "connector schema declares an undeclared source"
  checkAll validateDomain manifest.networkDomains
  checkAll (validateSigningKeyHandle manifest.id) manifest.signingKeyHandle.toList
  bailIf (manifest.builtIn = false ∧ manifest.signingKeyHandle = none)
    "external connectors require an opaque signing-key handle"
  checkAll ConnectorRuntimeManifest.validate manifest.runtime.toList
  bailIf (manifest.builtIn = true ∧ manifest.runtime.isSome)
    "built-in connectors use the managed in-process adapters"
  return { manifest with eventSources, eventFields }

/-- Validation keeps the identity of a manifest and what is declared built in. -/
theorem ConnectorManifest.validate_id {man valid : ConnectorManifest}
    (h : man.validate = .ok valid) :
    valid.id = man.id ∧ valid.builtIn = man.builtIn := by
  simp only [validate, bind_eq_ok, pure_eq_ok] at h
  obtain ⟨_, _, _, _, _, _, _, _, _, _, _, _, _, _, _, _, _, _, _, _, rfl⟩ := h
  exact ⟨rfl, rfl⟩

/-- The field schema of a source as validation leaves it. -/
def NormalFields (eventFields : BTreeMap EventSource (List String)) (source : EventSource) :
    Prop :=
  ∃ fields, eventFields[source]? = some fields ∧ sortDedup fields = fields ∧ fields ≠ [] ∧
    ∀ field ∈ fields, field ∈ supportedEventFields source

section
variable {eventFields valid : BTreeMap EventSource (List String)} {src other : EventSource}
  {sources : List EventSource}

theorem validateSourceFields_normal (h : validateSourceFields eventFields src = .ok valid) :
    NormalFields valid src := by
  simp only [validateSourceFields, bind_eq_ok, okOr_eq_ok, bailIf_eq_ok, pure_eq_ok, not_or,
    not_exists, not_and, not_not] at h
  obtain ⟨fs, -, -, ⟨hne, hs⟩, rfl⟩ := h
  exact ⟨sortDedup fs, by simp, sortDedup_sortDedup fs, hne, hs⟩

theorem validateSourceFields_keeps (h : validateSourceFields eventFields src = .ok valid)
    (ho : NormalFields eventFields other) : NormalFields valid other := by
  by_cases heq : src = other
  · subst heq
    exact validateSourceFields_normal h
  · simp only [validateSourceFields, bind_eq_ok, pure_eq_ok] at h
    obtain ⟨fs, -, -, -, rfl⟩ := h
    obtain ⟨kept, hg, hn⟩ := ho
    exact ⟨kept, by simpa [Std.ExtTreeMap.getElem?_insert, heq] using hg, hn⟩

theorem validateSourceFields_of_normal (h : NormalFields eventFields src) :
    validateSourceFields eventFields src = .ok eventFields := by
  obtain ⟨fs, hg, hs, hne, hsu⟩ := h
  simp only [validateSourceFields, bind_eq_ok, okOr_eq_ok, bailIf_eq_ok, pure_eq_ok, not_or,
    not_exists, not_and, not_not]
  refine ⟨fs, hg, (), ⟨by rwa [hs], by rwa [hs]⟩, ?_⟩
  apply Std.ExtTreeMap.ext_getElem?
  intro k
  rw [Std.ExtTreeMap.getElem?_insert, hs]
  split
  case isTrue heq =>
    obtain rfl := Std.LawfulEqCmp.eq_of_compare heq
    exact hg.symm
  case isFalse => rfl

theorem foldlM_keeps (h : sources.foldlM validateSourceFields eventFields = .ok valid)
    (ho : NormalFields eventFields other) : NormalFields valid other := by
  induction sources generalizing eventFields with
  | nil =>
    cases h
    exact ho
  | cons src sources ih =>
    simp only [foldlM_cons, bind_eq_ok] at h
    obtain ⟨next, hn, h⟩ := h
    exact ih h (validateSourceFields_keeps hn ho)

theorem foldlM_normal (h : sources.foldlM validateSourceFields eventFields = .ok valid) :
    ∀ src ∈ sources, NormalFields valid src := by
  induction sources generalizing eventFields with
  | nil => simp
  | cons src sources ih =>
    simp only [foldlM_cons, bind_eq_ok] at h
    obtain ⟨next, hn, h⟩ := h
    intro other hm
    rcases mem_cons.mp hm with rfl | hm
    · exact foldlM_keeps h (validateSourceFields_normal hn)
    · exact ih h other hm

theorem foldlM_of_normal (h : ∀ src ∈ sources, NormalFields eventFields src) :
    sources.foldlM validateSourceFields eventFields = .ok eventFields := by
  induction sources with
  | nil => rfl
  | cons src sources ih =>
    simp only [foldlM_cons, bind_eq_ok]
    exact ⟨eventFields, validateSourceFields_of_normal (h src (by simp)),
      ih fun other hm => h other (by simp [hm])⟩

end

/-- A validated manifest is valid as it is. -/
theorem ConnectorManifest.validate_validate {man valid : ConnectorManifest}
    (h : man.validate = .ok valid) : valid.validate = .ok valid := by
  simp only [validate, bind_eq_ok, bailIf_eq_ok, pure_eq_ok] at h
  obtain ⟨_, hv, _, hid, _, hb, eventFields, hf, _, hd, _, hdo, _,
    hh, _, he, _, hr, _, hbi, rfl⟩ := h
  simp only [validate, bind_eq_ok, bailIf_eq_ok, pure_eq_ok, sortDedup_sortDedup]
  refine ⟨(), hv, (), hid, (), ?_, eventFields, foldlM_of_normal (foldlM_normal hf),
    (), hd, (), hdo, (), hh, (), he, (), hr, (), hbi, rfl⟩
  have hl := length_sortDedup_le man.eventSources
  simp only [not_or, not_lt, sortDedup_eq_nil] at hb ⊢
  refine ⟨hb.1, hb.2.1, hb.2.2.1, hb.2.2.2.1, hb.2.2.2.2.1, hb.2.2.2.2.2.1, ?_, hb.2.2.2.2.2.2.2⟩
  exact le_trans hl hb.2.2.2.2.2.2.1

/-! The connector registry: its records, its trust-store operations and signed intake. -/

inductive ConnectorHealth where
  | disabled
  | ready
  | healthy
  | error
deriving DecidableEq, Repr

structure ConnectorStatus where
  manifest : ConnectorManifest
  enabled : Bool
  networkAllowed : Bool
  health : ConnectorHealth
  lastEventAtUnix : Option ℕ
  lastError : Option String
  rollbackAvailable : Bool

structure ConnectorEventRequest where
  connectorId : String
  source : EventSource
  timestampUnix : ℕ
  nonce : String
  payload : Value
  signatureHex : String

structure ConnectorRecord where
  manifest : ConnectorManifest
  enabled : Bool
  networkAllowed : Bool
  health : ConnectorHealth
  lastEventAtUnix : Option ℕ
  lastError : Option String
  rollback : Option ConnectorManifest

/-- A record as installation leaves it: no enablement and no network consent. -/
def ConnectorRecord.installed (manifest : ConnectorManifest) (rollback : Option ConnectorManifest)
    : ConnectorRecord :=
  { manifest, enabled := false, networkAllowed := false, health := .disabled,
    lastEventAtUnix := none, lastError := none, rollback }

structure ConnectorRegistryState where
  records : BTreeMap String ConnectorRecord
  sourcePolicies : BTreeMap EventSource EventSourcePolicy
  recentNonces : BTreeMap (String × String) ℕ

def signatureWindowSeconds : ℕ := 300

/-- The cryptography and the serializer the registry calls. -/
structure ConnectorCrypto where
  hmacSha256 : List UInt8 → List UInt8 → List UInt8
  /-- A tag has 32 bytes. -/
  length_hmacSha256 : ∀ secret message, (hmacSha256 secret message).length = 32
  /-- `serde_json::to_vec`. -/
  toVec : Value → List UInt8

def builtInConnector (id name description : String) (source : EventSource)
    (networkDomains : List String) : ConnectorManifest :=
  { manifestVersion := connectorManifestVersion, id, name, description, version := "1.0.0",
    eventSources := [source],
    eventFields := (∅ : BTreeMap EventSource (List String)).insert source
      (supportedEventFields source),
    networkDomains, signingKeyHandle := none, runtime := none, builtIn := true }

def builtInConnectors : List ConnectorManifest :=
  [("desktop-events", "Desktop Events", EventSource.desktop),
    ("workflow-events", "Workflow Events", EventSource.workflow),
    ("service-health", "Service Health", EventSource.serviceHealth),
    ("notifications", "Notifications", EventSource.notification),
    ("local-calendar", "Local Calendar", EventSource.calendar)].map (fun (id, name, source) =>
      builtInConnector id name ("Built-in local " ++ source.asStr ++ " adapter.") source []) ++
  [builtInConnector "google-calendar" "Google Calendar"
      "Read-only Google Calendar incremental sync." .calendar
      ["oauth2.googleapis.com", "www.googleapis.com"],
    builtInConnector "microsoft-calendar" "Microsoft 365 Calendar"
      "Read-only Microsoft Graph calendar incremental sync." .calendar
      ["login.microsoftonline.com", "graph.microsoft.com"]]

def builtInRecords : BTreeMap String ConnectorRecord :=
  builtInConnectors.foldl
    (fun records manifest => records.insert manifest.id (.installed manifest none)) ∅

def statusFromRecord (record : ConnectorRecord) : ConnectorStatus :=
  { manifest := record.manifest, enabled := record.enabled,
    networkAllowed := record.networkAllowed, health := record.health,
    lastEventAtUnix := record.lastEventAtUnix, lastError := record.lastError,
    rollbackAvailable := record.rollback.isSome }

/-- `ConnectorRegistry::statuses`. -/
def statuses (state : ConnectorRegistryState) : List ConnectorStatus :=
  state.records.values.map statusFromRecord

def enabledRecord (state : ConnectorRegistryState) (connectorId : String) (source : EventSource)
    : Except String ConnectorRecord := do
  let record ← okOr state.records[connectorId]? ("unknown connector: " ++ connectorId)
  bailIf (record.enabled = false) "connector is disabled"
  bailIf (source ∉ record.manifest.eventSources) "connector is not authorized for this event source"
  return record

def authorizeBuiltin (state : ConnectorRegistryState) (connectorId : String) (source : EventSource)
    : Except String Unit := do
  let record ← enabledRecord state connectorId source
  bailIf (record.manifest.builtIn = false) "external connector requires a signed event"

def authorizeManagedEvent (state : ConnectorRegistryState) (connectorId : String)
    (source : EventSource) (payload : Value) : Except String Unit := do
  let record ← enabledRecord state connectorId source
  bailIf (record.manifest.builtIn = false ∧ record.manifest.runtime = none)
    "connector is not managed by the connector host"
  let object ← okOr payload.asObject "managed connector payload must be a JSON object"
  let fields ← okOr record.manifest.eventFields[source]? "connector has no schema for this source"
  bailIf (∃ member ∈ object, member.1 ∉ fields)
    "managed connector emitted a field outside its manifest schema"

def decodeHex (value : String) : Except String (List UInt8) := do
  bailIf (byteLen value ≠ 64 ∨ allChars isAsciiHexdigit value = false)
    "connector signature must be 64 hexadecimal characters"
  return decodeHexChars value.toList

def signatureMessage (crypto : ConnectorCrypto) (request : ConnectorEventRequest) : List UInt8 :=
  (request.connectorId ++ "\n" ++ request.source.asStr ++ "\n" ++
    toString request.timestampUnix ++ "\n" ++ request.nonce ++ "\n").toUTF8.data.toList ++
    crypto.toVec request.payload

def signConnectorEvent (crypto : ConnectorCrypto) (connectorId : String) (source : EventSource)
    (timestampUnix : ℕ) (nonce : String) (payload : Value) (secret : List UInt8) :
    ConnectorEventRequest :=
  let request : ConnectorEventRequest :=
    { connectorId, source, timestampUnix, nonce, payload, signatureHex := "" }
  { request with
    signatureHex := encodeHex (crypto.hmacSha256 secret (signatureMessage crypto request)) }

namespace ConnectorRegistryState

/-- `ConnectorRegistry::memory`. -/
def memory : ConnectorRegistryState :=
  { records := builtInRecords, sourcePolicies := ∅, recentNonces := ∅ }

def status (state : ConnectorRegistryState) (connectorId : String) :
    Except String ConnectorStatus := do
  let record ← okOr state.records[connectorId]? ("unknown connector: " ++ connectorId)
  return statusFromRecord record

/-- What an operation that changed the records returns: the outcome of writing the
trust store, then the status. The records keep the change either way. -/
def persisted (state : ConnectorRegistryState) (connectorId : String) (persist : Except String Unit)
    : ConnectorRegistryState × Except String ConnectorStatus :=
  (state, do
    persist
    state.status connectorId)

/-- The record an installation creates over the records already there. -/
def installRecord (state : ConnectorRegistryState) (manifest : ConnectorManifest) (overwrite : Bool)
    : Except String ConnectorRecord := do
  let manifest ← manifest.validate
  bailIf (manifest.builtIn = true) "external packages cannot claim built-in connector identity"
  match state.records[manifest.id]? with
  | some existing =>
    bailIf (existing.manifest.builtIn = true) "connector id conflicts with a built-in connector"
    bailIf (overwrite = false) "connector already exists; update was not approved"
    return .installed manifest (some existing.manifest)
  | none => return .installed manifest none

def install (state : ConnectorRegistryState) (manifest : ConnectorManifest) (overwrite : Bool)
    (persist : Except String Unit) : ConnectorRegistryState × Except String ConnectorStatus :=
  match state.installRecord manifest overwrite with
  | .error error => (state, .error error)
  | .ok record =>
    { state with records := state.records.insert record.manifest.id record }.persisted
      record.manifest.id persist

def enabledRecordUpdate (state : ConnectorRegistryState) (connectorId : String)
    (enabled networkAllowed : Bool) : Except String ConnectorRecord := do
  let record ← okOr state.records[connectorId]? ("unknown connector: " ++ connectorId)
  bailIf (networkAllowed = true ∧ record.manifest.networkDomains = [])
    "connector declares no network domains"
  return { record with
    enabled
    networkAllowed := enabled && networkAllowed
    health := if enabled then .ready else .disabled
    lastError := none }

def setEnabled (state : ConnectorRegistryState) (connectorId : String)
    (enabled networkAllowed : Bool) (persist : Except String Unit) :
    ConnectorRegistryState × Except String ConnectorStatus :=
  match state.enabledRecordUpdate connectorId enabled networkAllowed with
  | .error error => (state, .error error)
  | .ok record =>
    { state with records := state.records.insert connectorId record }.persisted connectorId persist

def rollbackRecord (state : ConnectorRegistryState) (connectorId : String) :
    Except String ConnectorRecord := do
  let record ← okOr state.records[connectorId]? ("unknown connector: " ++ connectorId)
  bailIf (record.manifest.builtIn = true)
    "built-in connectors cannot be rolled back from the trust store"
  let previous ← okOr record.rollback "connector has no rollback manifest"
  return { record with
    manifest := previous
    rollback := some record.manifest
    enabled := false
    networkAllowed := false
    health := .disabled }

def rollback (state : ConnectorRegistryState) (connectorId : String) (persist : Except String Unit)
    : ConnectorRegistryState × Except String ConnectorStatus :=
  match state.rollbackRecord connectorId with
  | .error error => (state, .error error)
  | .ok record =>
    { state with records := state.records.insert connectorId record }.persisted connectorId persist

end ConnectorRegistryState

/-- The checks made before the nonce cache is touched. `abs_diff` is taken both ways. -/
def checkFreshness (now : ℕ) (request : ConnectorEventRequest) : Except String Unit :=
  bailIf (byteLen request.nonce < 16
      ∨ 128 < byteLen request.nonce
      ∨ allChars isAsciiAlphanumeric request.nonce = false
      ∨ signatureWindowSeconds < now - request.timestampUnix + (request.timestampUnix - now))
    "connector event nonce or timestamp is invalid"

/-- The checks made between the sweep of the nonce cache and the replay check. -/
def checkSignature (crypto : ConnectorCrypto) (state : ConnectorRegistryState)
    (request : ConnectorEventRequest) (secret : List UInt8) : Except String Unit := do
  let record ← enabledRecord state request.connectorId request.source
  bailIf (record.manifest.builtIn = true) "built-in connectors use the internal trusted path"
  let signature ← decodeHex request.signatureHex
  bailIf (crypto.hmacSha256 secret (signatureMessage crypto request) ≠ signature)
    "connector signature verification failed"

def replayKey (request : ConnectorEventRequest) : String × String :=
  (request.connectorId, request.nonce)

def sweepNonces (now : ℕ) (state : ConnectorRegistryState) : ConnectorRegistryState :=
  { state with
    recentNonces := state.recentNonces.filter fun _ seen =>
      decide (now - seen ≤ signatureWindowSeconds) }

def verifySigned (crypto : ConnectorCrypto) (now : ℕ) (request : ConnectorEventRequest)
    (secret : List UInt8) (state : ConnectorRegistryState) :
    ConnectorRegistryState × Except String Unit :=
  match checkFreshness now request with
  | .error error => (state, .error error)
  | .ok () =>
    let state := sweepNonces now state
    match checkSignature crypto state request secret with
    | .error error => (state, .error error)
    | .ok () =>
      if replayKey request ∈ state.recentNonces then
        (state, .error "connector event nonce was already used")
      else
        ({ state with recentNonces := state.recentNonces.insert (replayKey request) now }, .ok ())

section
variable {crypto : ConnectorCrypto} {st : ConnectorRegistryState} {cid nonce : String}
  {src : EventSource} {r : ConnectorRecord} {pl : Value} {sec : List UInt8}

theorem enabledRecord_eq_ok : enabledRecord st cid src = .ok r ↔
    st.records[cid]? = some r ∧ r.enabled ∧ src ∈ r.manifest.eventSources := by
  simp only [enabledRecord, bind_eq_ok, okOr_eq_ok, bailIf_eq_ok, pure_eq_ok]
  constructor
  · rintro ⟨_, hg, _, he, _, hs, rfl⟩
    exact ⟨hg, by simpa using he, by simpa using hs⟩
  · rintro ⟨hg, he, hs⟩
    exact ⟨r, hg, (), by simp [he], (), by simpa using hs, rfl⟩

theorem decodeHex_encodeHex {bytes : List UInt8} (h : bytes.length = 32) :
    decodeHex (encodeHex bytes) = .ok bytes := by
  have ha : allChars isAsciiHexdigit (encodeHex bytes) := by
    simpa [allChars, encodeHex] using encodeHexChars_all bytes
  have hb : decodeHexChars (encodeHex bytes).toList = bytes := by
    simp [encodeHex, decodeHexChars_encodeHexChars]
  simp only [decodeHex, bind_eq_ok, bailIf_eq_ok, pure_eq_ok]
  exact ⟨(), by simp [byteLen_encodeHex, h, ha], hb⟩

/-- A signed event passes the signature check of an enabled external connector. -/
theorem checkSignature_signConnectorEvent (he : enabledRecord st cid src = .ok r)
    (hex : r.manifest.builtIn = false) (timestampUnix : ℕ) :
    checkSignature crypto st
      (signConnectorEvent crypto cid src timestampUnix nonce pl sec) sec = .ok () := by
  simp only [checkSignature, bind_eq_ok, bailIf_eq_ok]
  exact ⟨r, he, (), by simp [hex], _,
    decodeHex_encodeHex (crypto.length_hmacSha256 _ _), not_not_intro rfl⟩

theorem verifySigned_records (crypto : ConnectorCrypto) (now : ℕ) (req : ConnectorEventRequest)
    (sec : List UInt8) (st : ConnectorRegistryState) :
    (verifySigned crypto now req sec st).1.records = st.records := by
  unfold verifySigned
  split
  · rfl
  · dsimp only
    split
    · rfl
    · split <;> rfl

end

end FocalDesk
