import FocalDesk.Capability.Policy
import FocalDesk.Event.Fabric
import FocalDesk.Integer
import FocalDesk.Library.Eviction

/-! The context broker: published items, the grants on them, and the suggestion inbox. -/
namespace FocalDesk
open Library

def maxContextItems : ℕ := 128

def maxContextBytes : ℕ := 16 * 1024

deriving instance Ord for ContextKind

/-- The source's `Public`, `Private` and `Restricted`. -/
inductive ContextSensitivity where
  | publicData
  | privateData
  | restricted
deriving DecidableEq, Repr

structure ContextEnvelope where
  id : String
  kind : ContextKind
  provenance : String
  sensitivity : ContextSensitivity
  payload : Value
  createdAtUnix : ℕ
  expiresAtUnix : ℕ

structure ContextGrant where
  id : String
  agentId : String
  kinds : List ContextKind
  issuedAtUnix : ℕ
  expiresAtUnix : ℕ
  revoked : Bool
deriving DecidableEq

structure ContextSuggestion where
  id : String
  agentId : String
  title : String
  body : String
  createdAtUnix : ℕ
  expiresAtUnix : ℕ
  dismissed : Bool
deriving DecidableEq

structure ContextState where
  items : BTreeMap String ContextEnvelope
  grants : BTreeMap String ContextGrant
  suggestions : BTreeMap String ContextSuggestion

def ContextState.default : ContextState := { items := ∅, grants := ∅, suggestions := ∅ }

def pruneContext (now : ℕ) (state : ContextState) : ContextState :=
  { items := state.items.filter fun _ item => decide (now < item.expiresAtUnix)
    grants := state.grants.filter fun _ grant => decide (now < grant.expiresAtUnix)
    suggestions := state.suggestions.filter fun _ suggestion =>
      decide (now < suggestion.expiresAtUnix) }

/-- The envelope that `publish` makes of its arguments. -/
def makeEnvelope (codec : ValueCodec) (now : ℕ) (id : String) (kind : ContextKind)
    (provenance : String) (sensitivity : ContextSensitivity) (payload : Value) (ttlSeconds : ℕ)
    : Except String ContextEnvelope := do
  bailIf (¬ (5 ≤ ttlSeconds ∧ ttlSeconds ≤ 3600)) "context TTL must be between 5 and 3600 seconds"
  bailIf (trim provenance = "" ∨ 200 < byteLen provenance)
    "context provenance must contain 1-200 characters"
  bailIf (maxContextBytes < codec.len payload) "context payload exceeds 16 KiB"
  return { id, kind, provenance, sensitivity, payload, createdAtUnix := now,
           expiresAtUnix := saturatingAdd now ttlSeconds }

/-- The envelopes with room for one more. -/
def makeRoom (items : BTreeMap String ContextEnvelope) : BTreeMap String ContextEnvelope :=
  evictOldest maxContextItems ContextEnvelope.createdAtUnix ContextEnvelope.id items.size items

/-- `ContextBroker::publish` -/
def publishContext (codec : ValueCodec) (state : ContextState) (now : ℕ) (id : String)
    (kind : ContextKind) (provenance : String) (sensitivity : ContextSensitivity) (payload : Value)
    (ttlSeconds : ℕ) : ContextState × Except String ContextEnvelope :=
  match makeEnvelope codec now id kind provenance sensitivity payload ttlSeconds with
  | .error error => (state, .error error)
  | .ok envelope =>
    let state := pruneContext now state
    ({ state with items := (makeRoom state.items).insert envelope.id envelope }, .ok envelope)

/-- The grant that `grant` makes of its arguments. -/
def makeGrant (now : ℕ) (id agentId : String) (kinds : List ContextKind) (ttlSeconds : ℕ) :
    Except String ContextGrant := do
  bailIf (trim agentId = "" ∨ 64 < byteLen agentId ∨ ¬ (10 ≤ ttlSeconds ∧ ttlSeconds ≤ 3600))
    "context grant is out of bounds"
  let kinds := sortDedup kinds
  bailIf (kinds = [] ∨ 6 < kinds.length) "context grant must contain 1-6 unique kinds"
  return { id, agentId, kinds, issuedAtUnix := now,
           expiresAtUnix := saturatingAdd now ttlSeconds, revoked := false }

/-- `ContextBroker::grant` -/
def grantContext (state : ContextState) (now : ℕ) (id agentId : String) (kinds : List ContextKind)
    (ttlSeconds : ℕ) : ContextState × Except String ContextGrant :=
  match makeGrant now id agentId kinds ttlSeconds with
  | .error error => (state, .error error)
  | .ok grant =>
    let state := pruneContext now state
    ({ state with grants := state.grants.insert grant.id grant }, .ok grant)

/-- The kinds that the grants of an agent in the store cover. -/
def grantedKinds (state : ContextState) (agentId : String) : List ContextKind :=
  ((state.grants.toList.map Prod.snd).filter fun grant =>
    !grant.revoked && grant.agentId == agentId).flatMap ContextGrant.kinds

/-- The items an agent may see, oldest first. -/
def releasedItems (state : ContextState) (agentId : String) (allowed : Option (List ContextKind))
    : List ContextEnvelope :=
  ((state.items.toList.map Prod.snd).filter fun item =>
    (grantedKinds state agentId).contains item.kind &&
      allowed.all fun allowed => allowed.contains item.kind).insertionSort
    fun a b => a.createdAtUnix ≤ b.createdAtUnix

/-- `ContextBroker::for_agent` -/
def forAgent (state : ContextState) (now : ℕ) (agentId : String)
    (allowed : Option (List ContextKind)) : ContextState × List ContextEnvelope :=
  (pruneContext now state, releasedItems (pruneContext now state) agentId allowed)

/-- `ContextBroker::revoke` -/
def revokeContext (state : ContextState) (grantId : String) : ContextState × Bool :=
  ({ state with
      grants := state.grants.modify grantId fun grant => { grant with revoked := true } },
    state.grants.contains grantId)

/-- `ContextBroker::clear` -/
def clearContext (state : ContextState) : ContextState × ℕ :=
  ({ state with items := ∅ }, state.items.size)

/-- `ContextBroker::suggest`, which makes room for one suggestion at most. -/
def suggestContext (state : ContextState) (now : ℕ) (id agentId title body : String)
    (ttlSeconds : ℕ) : ContextState × Except String ContextSuggestion :=
  if trim agentId = "" ∨ trim title = "" ∨ 120 < charCount title ∨ trim body = "" ∨
      2000 < charCount body ∨ ¬ (30 ≤ ttlSeconds ∧ ttlSeconds ≤ 86400) then
    (state, .error "suggestion is out of bounds")
  else
    let suggestion : ContextSuggestion :=
      { id, agentId, title, body, createdAtUnix := now,
        expiresAtUnix := saturatingAdd now ttlSeconds, dismissed := false }
    let state := pruneContext now state
    let suggestions := evictOldest 64 ContextSuggestion.createdAtUnix ContextSuggestion.id 1
      state.suggestions
    ({ state with suggestions := suggestions.insert id suggestion }, .ok suggestion)

/-- `ContextBroker::dismiss_suggestion` -/
def dismissContextSuggestion (state : ContextState) (suggestionId : String) :
    ContextState × Bool :=
  ({ state with
      suggestions := state.suggestions.modify suggestionId fun suggestion =>
        { suggestion with dismissed := true } },
    state.suggestions.contains suggestionId)

/-! Calls. Identifiers of new records are random. -/

inductive ContextOperation where
  | publish (id : String) (kind : ContextKind) (provenance : String)
      (sensitivity : ContextSensitivity) (payload : Value) (ttlSeconds : ℕ)
  | grant (id agentId : String) (kinds : List ContextKind) (ttlSeconds : ℕ)
  | forAgent (agentId : String) (allowed : Option (List ContextKind))
  | snapshot
  | revoke (grantId : String)
  | clear
  | suggest (id agentId title body : String) (ttlSeconds : ℕ)
  | dismissSuggestion (suggestionId : String)

structure ContextCall where
  now : ℕ
  operation : ContextOperation

/-- The broker after a call. -/
def ContextCall.perform (codec : ValueCodec) (state : ContextState) (call : ContextCall) :
    ContextState :=
  match call.operation with
  | .publish id kind provenance sensitivity payload ttlSeconds =>
    (publishContext codec state call.now id kind provenance sensitivity payload ttlSeconds).1
  | .grant id agentId kinds ttlSeconds =>
    (grantContext state call.now id agentId kinds ttlSeconds).1
  | .forAgent agentId allowed => (forAgent state call.now agentId allowed).1
  | .snapshot => pruneContext call.now state
  | .revoke grantId => (revokeContext state grantId).1
  | .clear => (clearContext state).1
  | .suggest id agentId title body ttlSeconds =>
    (suggestContext state call.now id agentId title body ttlSeconds).1
  | .dismissSuggestion suggestionId => (dismissContextSuggestion state suggestionId).1

/-- The broker of a new process after a list of calls. -/
def brokerAfter (codec : ValueCodec) (calls : List ContextCall) : ContextState :=
  calls.foldl (ContextCall.perform codec) ContextState.default

end FocalDesk
