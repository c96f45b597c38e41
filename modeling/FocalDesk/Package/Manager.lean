import FocalDesk.Connector.Registry
import FocalDesk.Workflow.Definition
import Mathlib.Algebra.Order.Ring.Nat
import FocalDesk.Capability.Meet
import FocalDesk.Library.Undo

/-! Package bundles, their validation, and the authority their payload asks for. -/
namespace FocalDesk
open Library

def faiPackageVersion : ℕ := 1

def maxBundleBytes : ℕ := 2 * 1024 * 1024

structure FaiSigner where
  id : String
  publicKeyHex : String
deriving DecidableEq

structure FaiPackageDependency where
  packageId : String
  version : String
deriving DecidableEq

structure FaiPackageManifest where
  packageVersion : ℕ
  id : String
  name : String
  version : String
  description : String
  dependencies : List FaiPackageDependency
  signer : FaiSigner
deriving DecidableEq

structure FaiPackagePayload where
  agents : List AgentDefinition
  workflows : List WorkflowDefinition
  routines : List RoutineDefinition
  connectors : List ConnectorManifest
deriving DecidableEq

structure FaiBundle (Scenario : Type) where
  manifest : FaiPackageManifest
  payload : FaiPackagePayload
  scenarios : List Scenario
  signatureHex : String
deriving DecidableEq

/-- What the package manager calls: the URL parser, the Scenario Lab, the verifier of
signatures and the serializer. -/
structure PackageGates where
  urls : UrlParser
  Scenario : Type
  scenarioName : Scenario → String
  /-- `ScenarioFixture::validate` -/
  validateScenario : Scenario → Except String Unit
  /-- `evaluate_scenario(..).is_ok_and(|report| report.passed)` -/
  scenarioPassed : Scenario → Bool
  /-- `verify_signature(..).is_ok()` -/
  signatureValid : FaiBundle Scenario → Bool
  digestHex : FaiBundle Scenario → String
  /-- The length of `serde_json::to_vec`. -/
  bundleLen : FaiBundle Scenario → ℕ

def validatePackageId (value kind : String) : Except String Unit :=
  bailIf (isIdentifier 80 value = false) ("invalid AIOS " ++ kind ++ " id")

def decodePublicKey (value : String) : Except String (List UInt8) := do
  bailIf (byteLen value % 2 ≠ 0 ∨ allChars isAsciiHexdigit value = false) "invalid hexadecimal data"
  bailIf ((decodeHexChars value.toList).length ≠ 32) "Ed25519 public key must be 32 bytes"
  return decodeHexChars value.toList

/-- One kind of payload item: each is valid, not built in, and has an identity of its own. -/
def validateItems {α : Type} (validate : α → Except String Unit) (builtIn : α → Bool)
    (id : α → String) (error : String) : List String → List α → Except String Unit
  | _, [] => .ok ()
  | ids, item :: items => do
    validate item
    bailIf (builtIn item = true ∨ id item ∈ ids) error
    validateItems validate builtIn id error (id item :: ids) items

namespace FaiPackagePayload

def validate (urls : UrlParser) (payload : FaiPackagePayload) : Except String Unit := do
  bailIf (64 < payload.agents.length ∨ 64 < payload.workflows.length
      ∨ 64 < payload.routines.length ∨ 32 < payload.connectors.length
      ∨ (payload.agents = [] ∧ payload.workflows = [] ∧ payload.routines.isEmpty = true
        ∧ payload.connectors.isEmpty = true))
    "AIOS package payload is empty or exceeds its bounds"
  validateItems (AgentDefinition.validate urls) AgentDefinition.builtIn AgentDefinition.id
    "package agents cannot claim built-in or duplicate identities" [] payload.agents
  validateItems (WorkflowDefinition.validate urls) WorkflowDefinition.builtIn WorkflowDefinition.id
    "package workflows cannot claim built-in or duplicate identities" [] payload.workflows
  validateItems RoutineDefinition.validate (fun _ => false) RoutineDefinition.id
    "package routines cannot duplicate identities" [] payload.routines
  validateItems (fun item => item.validate.map fun _ => ()) ConnectorManifest.builtIn
    ConnectorManifest.id "package connectors cannot claim built-in or duplicate identities" []
    payload.connectors

end FaiPackagePayload

def FaiPackageDependency.validate (dependency : FaiPackageDependency) (ids : List String) :
    Except String Unit := do
  validatePackageId dependency.packageId "dependency"
  bailIf (trim dependency.version = "" ∨ 40 < byteLen dependency.version
      ∨ dependency.packageId ∈ ids)
    "AIOS package dependency is invalid or duplicated"

def validateDependencyList : List String → List FaiPackageDependency → Except String Unit
  | _, [] => .ok ()
  | ids, dependency :: dependencies => do
    dependency.validate ids
    validateDependencyList (dependency.packageId :: ids) dependencies

namespace FaiBundle
variable {gates : PackageGates}

def validateWithoutSignature (gates : PackageGates) (bundle : FaiBundle gates.Scenario) :
    Except String Unit := do
  bailIf (bundle.manifest.packageVersion ≠ faiPackageVersion) "unsupported AIOS package version"
  validatePackageId bundle.manifest.id "package"
  validatePackageId bundle.manifest.signer.id "signer"
  let _ ← decodePublicKey bundle.manifest.signer.publicKeyHex
  bailIf (trim bundle.manifest.name = "" ∨ 100 < charCount bundle.manifest.name
      ∨ trim bundle.manifest.version = "" ∨ 40 < charCount bundle.manifest.version
      ∨ 1000 < charCount bundle.manifest.description
      ∨ 32 < bundle.manifest.dependencies.length
      ∨ bundle.scenarios.isEmpty = true ∨ 32 < bundle.scenarios.length)
    "AIOS package metadata is out of bounds"
  validateDependencyList [] bundle.manifest.dependencies
  bundle.payload.validate gates.urls
  checkAll gates.validateScenario bundle.scenarios

def validate (gates : PackageGates) (bundle : FaiBundle gates.Scenario) : Except String Unit := do
  bundle.validateWithoutSignature gates
  bailIf (byteLen bundle.signatureHex ≠ 128)
    "AIOS package signature must be 64-byte hexadecimal Ed25519 data"
  bailIf (maxBundleBytes < gates.bundleLen bundle) "AIOS package exceeds 2 MiB"

end FaiBundle

/-! Authority. -/

structure FaiAuthoritySummary where
  tools : List String
  networkDomains : List String
  secretHandles : List String
  eventSources : List EventSource
  agentTriggers : ℕ
  workflowNodes : ℕ
  routines : ℕ
  connectorRuntimes : ℕ
deriving DecidableEq

/-- The policies a payload declares, of its agents and as ceilings of its workflows. -/
def FaiPackagePayload.policies (payload : FaiPackagePayload) : List CapabilityPolicy :=
  payload.agents.filterMap AgentDefinition.capabilityPolicy ++
    payload.workflows.filterMap WorkflowDefinition.capabilityCeiling

/-- The set of the values in a list, in ascending order. -/
def authority (payload : FaiPackagePayload) : FaiAuthoritySummary :=
  { tools := sortDedup (payload.agents.flatMap AgentDefinition.toolAllowlist)
    networkDomains := sortDedup
      (payload.policies.flatMap (fun policy => policy.networkOrigins.getD []) ++
        payload.connectors.flatMap ConnectorManifest.networkDomains)
    secretHandles := sortDedup
      (payload.policies.flatMap (fun policy => policy.secretHandles.getD []) ++
        payload.connectors.filterMap ConnectorManifest.signingKeyHandle)
    eventSources := sortDedup (payload.connectors.flatMap ConnectorManifest.eventSources)
    agentTriggers := (payload.agents.map fun agent => agent.triggers.length).sum
    workflowNodes := (payload.workflows.map fun workflow => workflow.nodes.length).sum
    routines := payload.routines.length
    connectorRuntimes := (payload.connectors.filter fun connector => connector.runtime.isSome).length }

def difference {α : Type} [DecidableEq α] (old new : List α) : List α :=
  new.filter fun value => value ∉ old

def authorityDelta (old new : FaiAuthoritySummary) : FaiAuthoritySummary :=
  { tools := difference old.tools new.tools
    networkDomains := difference old.networkDomains new.networkDomains
    secretHandles := difference old.secretHandles new.secretHandles
    eventSources := difference old.eventSources new.eventSources
    agentTriggers := new.agentTriggers - old.agentTriggers
    workflowNodes := new.workflowNodes - old.workflowNodes
    routines := new.routines - old.routines
    connectorRuntimes := new.connectorRuntimes - old.connectorRuntimes }

/-! The package manager: what each of its operations changes under the lock. -/

def maxStoreBytes : ℕ := 32 * 1024 * 1024

structure PackageRecord (Scenario : Type) where
  staged : Option (FaiBundle Scenario)
  active : Option (FaiBundle Scenario)
  rollback : Option (FaiBundle Scenario)

structure PackageState (Scenario : Type) where
  trustedSigners : BTreeMap String String
  packages : BTreeMap String (PackageRecord Scenario)

structure FaiPackageInspection where
  packageId : String
  version : String
  digestSha256 : String
  signatureValid : Bool
  signerTrusted : Bool
  scenariosPassed : Bool
  scenarioNames : List String
  authority : FaiAuthoritySummary
  authorityDelta : Option FaiAuthoritySummary

namespace PackageState
variable {Scenario : Type} {gates : PackageGates}

def memory : PackageState Scenario := { trustedSigners := ∅, packages := ∅ }

def active (state : PackageState Scenario) (packageId : String) : Option (FaiBundle Scenario) :=
  state.packages[packageId]?.bind PackageRecord.active

def activeBundles (state : PackageState Scenario) : List (FaiBundle Scenario) :=
  state.packages.toList.filterMap fun (_, record) => record.active

def inspect (gates : PackageGates) (state : PackageState gates.Scenario)
    (bundle : FaiBundle gates.Scenario) : Except String FaiPackageInspection := do
  bundle.validate gates
  return {
    packageId := bundle.manifest.id
    version := bundle.manifest.version
    digestSha256 := gates.digestHex bundle
    signatureValid := gates.signatureValid bundle
    signerTrusted := state.trustedSigners[bundle.manifest.signer.id]?.any fun key =>
      toAsciiLowercase key == toAsciiLowercase bundle.manifest.signer.publicKeyHex
    scenariosPassed := bundle.scenarios.all gates.scenarioPassed
    scenarioNames := bundle.scenarios.map gates.scenarioName
    authority := FocalDesk.authority bundle.payload
    authorityDelta := (state.active bundle.manifest.id).map fun active =>
      FocalDesk.authorityDelta (FocalDesk.authority active.payload)
        (FocalDesk.authority bundle.payload) }

/-- What `stage` asks of a bundle before it takes the lock for the change. -/
def stageable (gates : PackageGates) (state : PackageState gates.Scenario)
    (bundle : FaiBundle gates.Scenario) : Except String FaiPackageInspection := do
  let inspection ← state.inspect gates bundle
  bailIf (inspection.signatureValid = false) "AIOS package signature is invalid"
  bailIf (inspection.signerTrusted = false) "AIOS package signer is not trusted"
  bailIf (inspection.scenariosPassed = false) "AIOS package failed its Scenario Lab gate"
  return inspection

def validateDependency (state : PackageState Scenario) (dependency : FaiPackageDependency) :
    Except String Unit := do
  let installed ← okOr (state.active dependency.packageId)
    ("missing active package dependency: " ++ dependency.packageId)
  bailIf (installed.manifest.version ≠ dependency.version)
    ("package dependency " ++ dependency.packageId ++ " requires version " ++ dependency.version ++
      " but " ++ installed.manifest.version ++ " is active")

def validateDependencies (state : PackageState Scenario) (bundle : FaiBundle Scenario) :
    Except String Unit :=
  checkAll state.validateDependency bundle.manifest.dependencies

def trustSigner (state : PackageState Scenario) (signer : FaiSigner) : PackageState Scenario :=
  { state with
    trustedSigners := state.trustedSigners.insert signer.id (toAsciiLowercase signer.publicKeyHex) }

def stage (state : PackageState Scenario) (bundle : FaiBundle Scenario) :
    Except String (PackageState Scenario) := do
  state.validateDependencies bundle
  let record := state.packages[bundle.manifest.id]?.getD ⟨none, none, none⟩
  let record := { record with staged := some bundle }
  return { state with packages := state.packages.insert bundle.manifest.id record }

def activate (state : PackageState Scenario) (packageId : String) :
    Except String (PackageState Scenario × FaiBundle Scenario) := do
  let record ← okOr state.packages[packageId]? ("unknown AIOS package: " ++ packageId)
  let staged ← okOr record.staged "AIOS package has no staged version"
  let record := { record with staged := none, active := some staged, rollback := record.active }
  return ({ state with packages := state.packages.insert packageId record }, staged)

def rollback (state : PackageState Scenario) (packageId : String) :
    Except String (PackageState Scenario × FaiBundle Scenario) := do
  let record ← okOr state.packages[packageId]? ("unknown AIOS package: " ++ packageId)
  let previous ← okOr record.rollback "AIOS package has no rollback version"
  let record := { record with active := some previous, rollback := record.active }
  return ({ state with packages := state.packages.insert packageId record }, previous)

end PackageState

/-- The four operations, with what each is called with. -/
inductive PackageCall (Scenario : Type) where
  | trustSigner (signer : FaiSigner)
  | stage (bundle : FaiBundle Scenario)
  | activate (packageId : String)
  | rollback (packageId : String)
deriving DecidableEq

namespace PackageCall
variable {Scenario : Type}

/-- What an operation checks before it takes the lock for its change. -/
def check (gates : PackageGates) (state : PackageState gates.Scenario) :
    PackageCall gates.Scenario → Except String Unit
  | .trustSigner signer => do
    validatePackageId signer.id "signer"
    let _ ← decodePublicKey signer.publicKeyHex
  | .stage bundle => do
    let _ ← state.stageable gates bundle
  | .activate packageId | .rollback packageId => validatePackageId packageId "package"

/-- The change an operation makes under the lock. -/
def mutate (state : PackageState Scenario) :
    PackageCall Scenario → Except String (PackageState Scenario)
  | .trustSigner signer => .ok (state.trustSigner signer)
  | .stage bundle => state.stage bundle
  | .activate packageId => (state.activate packageId).map Prod.fst
  | .rollback packageId => (state.rollback packageId).map Prod.fst

end PackageCall

/-! Concurrent calls of the package manager: what is in memory and on disk when all of them
have returned. -/

variable {gates : PackageGates} {stored : Bool} {len : PackageState gates.Scenario → ℕ}

/-- The operations of a manager as calls that change the state under the lock, persist it
without the lock, and restore it when that fails. -/
def packageSystem (gates : PackageGates) (stored : Bool) (len : PackageState gates.Scenario → ℕ) :
    Undo.System (PackageState gates.Scenario) (PackageCall gates.Scenario) where
  accepts call state := (call.check gates state).isOk
  mutate call state := call.mutate state
  fits state := decide (len state ≤ maxStoreBytes)
  stored := stored

/-- Calls that keep to the order are as if the successful ones had come one after the other,
and the store describes what they made. -/
theorem package_calls_serial (gates : PackageGates) (stored : Bool)
    (len : PackageState gates.Scenario → ℕ) (init : PackageState gates.Scenario)
    (events : List (Undo.Event (PackageCall gates.Scenario)))
    (final : Undo.State (PackageState gates.Scenario) (PackageCall gates.Scenario))
    (horder : Meets (Undo.step (packageSystem gates stored len)) Undo.InOrder (.opened init) events)
    (hrun : run (Undo.step (packageSystem gates stored len)) (.opened init) events = some final)
    (hquiet : final.quiet = true) : Undo.Serial (packageSystem gates stored len) init final :=
  Undo.serial_of_meets horder hrun hquiet

/-- Gates for runs that stage nothing. -/
def closedGates : PackageGates where
  urls := exampleUrls
  Scenario := Unit
  scenarioName _ := ""
  validateScenario _ := .ok ()
  scenarioPassed _ := false
  signatureValid _ := false
  digestHex _ := ""
  bundleLen _ := 0

/-- A manager with a store, whose documents are small. -/
def exampleSystem : Undo.System (PackageState Unit) (PackageCall Unit) :=
  packageSystem closedGates true fun _ => 0

def exampleSigner (id : String) : FaiSigner :=
  { id, publicKeyHex := String.ofList (List.replicate 64 '0') }

/-- Two calls at once, the second of which fails to write and undoes its change in time. -/
def orderlyCalls : List (Undo.Event (PackageCall Unit)) :=
  [.begin 1 (.trustSigner (exampleSigner "alice")), .begin 2 (.trustSigner (exampleSigner "bob")),
    .change 1, .change 2, .encode 2, .write 2 .lost, .restore 2, .encode 1, .write 1 .landed]

theorem package_calls_serial_sample :
    Meets (Undo.step exampleSystem) Undo.InOrder (.opened .memory) orderlyCalls ∧
      ∃ final, run (Undo.step exampleSystem) (.opened .memory) orderlyCalls = some final ∧
        final.quiet = true ∧ Undo.Serial exampleSystem .memory final := by
  have ho : Meets (Undo.step exampleSystem) Undo.InOrder (.opened .memory) orderlyCalls := by
    decide +kernel
  obtain ⟨final, hr, hq⟩ : ∃ final,
      run (Undo.step exampleSystem) (.opened .memory) orderlyCalls = some final ∧
        final.quiet = true :=
    exists_run_of_any (by decide +kernel)
  exact ⟨ho, final, hr, hq, package_calls_serial closedGates true (fun _ => 0) .memory
    orderlyCalls final ho hr hq⟩

/-- The first call fails after the second has returned, and takes the second's change along. -/
def lostUpdate : List (Undo.Event (PackageCall Unit)) :=
  [.begin 1 (.trustSigner (exampleSigner "alice")), .begin 2 (.trustSigner (exampleSigner "bob")),
    .change 1, .change 2, .encode 2, .write 2 .landed, .encode 1, .write 1 .lost, .restore 1]

/-- A call that returned successfully has no effect in the end. -/
theorem package_calls_lose_update :
    ¬ ∀ (gates : PackageGates) (stored : Bool) (len : PackageState gates.Scenario → ℕ)
      (init : PackageState gates.Scenario) (events : List (Undo.Event (PackageCall gates.Scenario)))
      (final : Undo.State (PackageState gates.Scenario) (PackageCall gates.Scenario)),
      run (Undo.step (packageSystem gates stored len)) (.opened init) events = some final →
        final.quiet = true → Undo.Serial (packageSystem gates stored len) init final := by
  intro h
  obtain ⟨final, hr, hf⟩ : ∃ final,
      run (Undo.step exampleSystem) (.opened .memory) lostUpdate = some final ∧
        (final.quiet && final.memory.value.trustedSigners.isEmpty &&
          final.file.value.trustedSigners.contains "bob") = true :=
    exists_run_of_any (by decide +kernel)
  simp only [Bool.and_eq_true] at hf
  obtain ⟨⟨hq, hm⟩, hfi⟩ := hf
  obtain ⟨-, -, -, -, ha⟩ := h closedGates true (fun _ => 0) .memory lostUpdate final hr hq
  rw [ha rfl, Std.ExtTreeMap.isEmpty_iff.mp hm] at hfi
  cases hfi

end FocalDesk
