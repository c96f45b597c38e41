import FocalDesk.Connector.Registry

/-! What a failed operation on the trust store leaves in the registry. -/
namespace FocalDesk
open Library

/-- The operations that answer their caller with the outcome of writing the trust store. -/
inductive TrustStoreCall where
  | setSourcePolicy (policy : EventSourcePolicy)
  | install (manifest : ConnectorManifest) (overwrite : Bool)
  | setEnabled (connectorId : String) (enabled networkAllowed : Bool)
  | rollback (connectorId : String)

namespace ConnectorRegistryState

def setSourcePolicy (state : ConnectorRegistryState) (policy : EventSourcePolicy)
    (persist : Except String Unit) : ConnectorRegistryState × Except String EventSourcePolicy :=
  match policy.validate with
  | .error error => (state, .error error)
  | .ok policy =>
    ({ state with sourcePolicies := state.sourcePolicies.insert policy.source policy }, do
      persist
      return policy)

end ConnectorRegistryState

variable {state : ConnectorRegistryState} {call : TrustStoreCall} {persist : Except String Unit}
  {cid : String} {record : ConnectorRecord} {mani : ConnectorManifest}
  {overwrite : Bool}

namespace TrustStoreCall

/-- A call with the outcome of the write it ends with. -/
def perform (call : TrustStoreCall) (state : ConnectorRegistryState) (persist : Except String Unit)
    : ConnectorRegistryState × Except String Unit :=
  match call with
  | .setSourcePolicy policy =>
    let (state, result) := state.setSourcePolicy policy persist
    (state, result.map fun _ => ())
  | .install manifest overwrite =>
    let (state, result) := state.install manifest overwrite persist
    (state, result.map fun _ => ())
  | .setEnabled connectorId enabled networkAllowed =>
    let (state, result) := state.setEnabled connectorId enabled networkAllowed persist
    (state, result.map fun _ => ())
  | .rollback connectorId =>
    let (state, result) := state.rollback connectorId persist
    (state, result.map fun _ => ())

/-- The change a call makes under the lock, when its own checks pass. -/
def change (call : TrustStoreCall) (state : ConnectorRegistryState) :
    Except String ConnectorRegistryState :=
  match call with
  | .setSourcePolicy policy => do
    let policy ← policy.validate
    return { state with sourcePolicies := state.sourcePolicies.insert policy.source policy }
  | .install manifest overwrite => do
    let record ← state.installRecord manifest overwrite
    return { state with records := state.records.insert record.manifest.id record }
  | .setEnabled connectorId enabled networkAllowed => do
    let record ← state.enabledRecordUpdate connectorId enabled networkAllowed
    return { state with records := state.records.insert connectorId record }
  | .rollback connectorId => do
    let record ← state.rollbackRecord connectorId
    return { state with records := state.records.insert connectorId record }

/-- A call that is told of an error leaves records and source policies as they were. -/
def Atomic (call : TrustStoreCall) (state : ConnectorRegistryState) (persist : Except String Unit)
    : Prop :=
  ∀ error, (call.perform state persist).2 = .error error →
    (call.perform state persist).1.records = state.records ∧
      (call.perform state persist).1.sourcePolicies = state.sourcePolicies

/-- The call is refused by its own checks or asks for what is there already. -/
def Keeps (call : TrustStoreCall) (state : ConnectorRegistryState) : Prop :=
  ∀ changed, call.change state = .ok changed →
    changed.records = state.records ∧ changed.sourcePolicies = state.sourcePolicies

end TrustStoreCall

/-- The record just written is there for the status that is returned. -/
theorem persisted_insert (state : ConnectorRegistryState) (cid : String)
    (record : ConnectorRecord) (persist : Except String Unit) :
    ({ state with records := state.records.insert cid record }.persisted cid
      persist).2.map (fun _ => ()) = persist := by
  have hs : ({ state with records := state.records.insert cid record } :
      ConnectorRegistryState).status cid = .ok (statusFromRecord record) := by
    simp [ConnectorRegistryState.status, okOr, bind, Except.bind, pure, Except.pure]
  cases persist with
  | error error => rfl
  | ok =>
    simp [ConnectorRegistryState.persisted, hs, bind, Except.bind, Except.map]

/-- A refused call changes nothing; any other makes its change and reports the write. -/
theorem perform_eq (call : TrustStoreCall) (state : ConnectorRegistryState)
    (persist : Except String Unit) :
    call.perform state persist =
      match call.change state with
      | .error error => (state, .error error)
      | .ok changed => (changed, persist) := by
  cases call with
  | setSourcePolicy pol =>
    simp only [TrustStoreCall.perform, TrustStoreCall.change,
      ConnectorRegistryState.setSourcePolicy]
    cases pol.validate with
    | error error => rfl
    | ok pol => cases persist <;> rfl
  | install mani overwrite =>
    simp only [TrustStoreCall.perform, TrustStoreCall.change, ConnectorRegistryState.install]
    cases state.installRecord mani overwrite with
    | error error => rfl
    | ok record => exact Prod.ext rfl (persisted_insert _ _ _ _)
  | setEnabled cid enabled networkAllowed =>
    simp only [TrustStoreCall.perform, TrustStoreCall.change, ConnectorRegistryState.setEnabled]
    cases state.enabledRecordUpdate cid enabled networkAllowed with
    | error error => rfl
    | ok record => exact Prod.ext rfl (persisted_insert _ _ _ _)
  | rollback cid =>
    simp only [TrustStoreCall.perform, TrustStoreCall.change, ConnectorRegistryState.rollback]
    cases state.rollbackRecord cid with
    | error error => rfl
    | ok record => exact Prod.ext rfl (persisted_insert _ _ _ _)

/-- A call is atomic for its caller exactly when its write succeeds or it had nothing to change. -/
theorem trustStoreCall_atomic_iff (call : TrustStoreCall) (state : ConnectorRegistryState)
    (persist : Except String Unit) :
    call.Atomic state persist ↔ persist = .ok () ∨ call.Keeps state := by
  unfold TrustStoreCall.Atomic TrustStoreCall.Keeps
  rw [perform_eq]
  cases call.change state with
  | error refusal => simp
  | ok changed =>
    cases persist with
    | ok => simp
    | error failure => simp

/-- A connector whose enablement could not be saved was reported as failed and is trusted. -/
theorem failed_enable_is_trusted :
    ∃ (call : TrustStoreCall) (failure : String),
      (call.perform .memory (.error failure)).2 = .error failure ∧
      authorizeBuiltin .memory "desktop-events" .desktop ≠ .ok () ∧
      authorizeBuiltin (call.perform .memory (.error failure)).1 "desktop-events" .desktop =
        .ok () ∧
      ¬ call.Atomic .memory (.error failure) := by
  have ht : authorizeBuiltin (TrustStoreCall.perform (.setEnabled "desktop-events" true false)
      .memory (.error "No space left on device")).1 "desktop-events" .desktop = .ok () := by
    decide +kernel
  have hu : authorizeBuiltin .memory "desktop-events" .desktop ≠ .ok () := by
    decide +kernel
  have hf : (TrustStoreCall.perform (.setEnabled "desktop-events" true false) .memory
      (.error "No space left on device")).2 = .error "No space left on device" := by
    decide +kernel
  refine ⟨.setEnabled "desktop-events" true false, "No space left on device", hf, hu,
    ht, ?_⟩
  intro ha
  have hs := (ha _ hf).1
  apply hu
  rw [← ht]
  simp only [authorizeBuiltin, enabledRecord, hs]

end FocalDesk
