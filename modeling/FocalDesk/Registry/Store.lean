import FocalDesk.Package.Authority
import FocalDesk.Pretty

/-! The private package registry: its policy and the catalogs it signs. -/
namespace FocalDesk
open Library

def privateRegistryVersion : ℕ := 1

structure FaiCatalogRevocation where
  packageId : String
  version : String
  reason : String
  revokedAtUnix : ℕ
deriving DecidableEq

structure FaiRegistryPolicy where
  version : ℕ
  registryId : String
  approvedSigners : BTreeMap String String
  revoked : List FaiCatalogRevocation

/-- An entry with all that a catalog lists of it. -/
structure FaiListedEntry extends FaiCatalogEntry where
  name : String
  digestSha256 : String
  signerId : String
  signerPublicKeyHex : String
  revoked : Bool
  revocationReason : Option String

structure FaiRegistryCatalog where
  version : ℕ
  registryId : String
  sequence : ℕ
  generatedAtUnix : ℕ
  packages : List FaiListedEntry

structure FaiSignedCatalog where
  catalog : FaiRegistryCatalog
  signingPublicKeyHex : String
  signatureHex : String

abbrev Coordinates := String × String

def FaiPackageDependency.coordinates (dependency : FaiPackageDependency) : Coordinates :=
  (dependency.packageId, dependency.version)

def FaiListedEntry.coordinates (entry : FaiListedEntry) : Coordinates :=
  (entry.packageId, entry.version)

def FaiCatalogRevocation.coordinates (revocation : FaiCatalogRevocation) : Coordinates :=
  (revocation.packageId, revocation.version)

def FaiBundle.coordinates {Scenario : Type} (bundle : FaiBundle Scenario) : Coordinates :=
  (bundle.manifest.id, bundle.manifest.version)

namespace FaiRegistryPolicy

/-- The first revocation of a package version. -/
def revocation (policy : FaiRegistryPolicy) (coordinates : Coordinates) :
    Option FaiCatalogRevocation :=
  policy.revoked.find? fun item =>
    item.packageId == coordinates.1 && item.version == coordinates.2

/-- `entry` -/
def entry {Scenario : Type} (policy : FaiRegistryPolicy) (bundle : FaiBundle Scenario)
    (inspection : FaiPackageInspection) : FaiListedEntry :=
  let revocation := policy.revocation bundle.coordinates
  { packageId := bundle.manifest.id
    name := bundle.manifest.name
    version := bundle.manifest.version
    digestSha256 := inspection.digestSha256
    signerId := bundle.manifest.signer.id
    signerPublicKeyHex := bundle.manifest.signer.publicKeyHex
    dependencies := bundle.manifest.dependencies
    authority := inspection.authority
    revoked := revocation.isSome
    revocationReason := revocation.map FaiCatalogRevocation.reason }

end FaiRegistryPolicy

/-! The files of a private registry, what its calls write to them and read from them. -/

def maxPolicyBytes : ℕ := 512 * 1024

/-- What the registry calls besides the package manager: the serializer of bundles, and the
signatures of catalogs under its key. -/
structure RegistryGates extends PackageGates where
  /-- The length of `serde_json::to_vec_pretty`. -/
  prettyLen : FaiBundle Scenario → ℕ
  /-- What `serde_json::from_slice` makes of a bundle as it was written. -/
  readBundle : FaiBundle Scenario → Except String (FaiBundle Scenario)
  signingPublicKeyHex : String
  sign : FaiRegistryCatalog → String
  /-- `VerifyingKey::verify` under a key, after both were decoded. -/
  verifies : String → FaiRegistryCatalog → String → Except String Unit

def validateRegistryId (value kind : String) : Except String Unit :=
  bailIf (isIdentifier 80 value = false) ("invalid private registry " ++ kind ++ " id")

def validateVersion (value : String) : Except String Unit :=
  bailIf (value = "" ∨ 40 < byteLen value
      ∨ allChars (fun c => isAsciiAlphanumeric c || c == '.' || c == '-' || c == '_') value = false)
    "invalid private registry package version"

def decodeFixed (n : ℕ) (value : String) : Except String (List UInt8) := do
  bailIf (byteLen value ≠ n * 2 ∨ allChars isAsciiHexdigit value = false)
    "invalid hexadecimal value"
  return decodeHexChars value.toList

/-- The two checks on a signer, in `approve_signer` and in `validate_policy`. -/
def validateSigner (id publicKeyHex : String) : Except String Unit := do
  validateRegistryId id "signer"
  let _ ← decodeFixed 32 publicKeyHex

namespace FaiRegistryPolicy

def pretty (policy : FaiRegistryPolicy) : String :=
  prettyObject 0 [
    ("version", toString policy.version),
    ("registry_id", quoted policy.registryId),
    ("approved_signers", prettyObject 1
      (policy.approvedSigners.toList.map fun signer => (signer.1, quoted signer.2))),
    ("revoked", prettyArray 1 (policy.revoked.map fun item => prettyObject 2 [
      ("package_id", quoted item.packageId),
      ("version", quoted item.version),
      ("reason", quoted item.reason),
      ("revoked_at_unix", toString item.revokedAtUnix)]))]

/-- `validate_policy` -/
def validate (policy : FaiRegistryPolicy) : Except String Unit := do
  bailIf (policy.version ≠ privateRegistryVersion) "unsupported private registry policy version"
  validateRegistryId policy.registryId "registry"
  checkAll (fun signer => validateSigner signer.1 signer.2) policy.approvedSigners.toList

def isRevoked (policy : FaiRegistryPolicy) (packageId version : String) : Bool :=
  policy.revoked.any fun item => item.packageId == packageId && item.version == version

end FaiRegistryPolicy

/-- The values that `policy.json`, `state.json` and the bundle files were written from. -/
structure RegistryDisk (Scenario : Type) where
  policy : Option FaiRegistryPolicy
  sequence : Option ℕ
  packages : BTreeMap Coordinates (FaiBundle Scenario)

/-- How a content write is taken back when the sequence cannot be bumped. -/
inductive RegistryUndo where
  | policy (previous : FaiRegistryPolicy)
  | package (coordinates : Coordinates)

inductive RegistryReply where
  | policy (policy : FaiRegistryPolicy)
  | entry (entry : FaiListedEntry)
  | revocation (revocation : FaiCatalogRevocation)

/-- A call that changes the registry, with its arguments and the time it reads. -/
inductive RegistryChange (Scenario : Type) where
  | approveSigner (signer : FaiSigner)
  | publish (bundle : FaiBundle Scenario)
  | revoke (packageId version reason : String) (now : ℕ)

/-- What a change has written before it bumps the sequence. -/
structure RegistryWrite (Scenario : Type) where
  disk : RegistryDisk Scenario
  undo : RegistryUndo
  reply : RegistryReply

namespace RegistryDisk
variable {Scenario : Type}

def opened : RegistryDisk Scenario := { policy := none, sequence := none, packages := ∅ }

/-- `policy` -/
def readPolicy (disk : RegistryDisk Scenario) : Except String FaiRegistryPolicy := do
  let policy ← okOr disk.policy "private registry policy is not initialized"
  bailIf (maxPolicyBytes < byteLen policy.pretty)
    "private registry policy file is unsafe or oversized"
  policy.validate
  return policy

/-- `state` -/
def readSequence (disk : RegistryDisk Scenario) : Except String ℕ :=
  okOr disk.sequence "No such file or directory (os error 2)"

def initializePolicy (disk : RegistryDisk Scenario) (registryId : String) :
    Except String (RegistryDisk Scenario × FaiRegistryPolicy) := do
  validateRegistryId registryId "registry"
  match disk.policy with
  | some _ => return (disk, ← disk.readPolicy)
  | none =>
    let policy : FaiRegistryPolicy :=
      { version := privateRegistryVersion, registryId, approvedSigners := ∅, revoked := [] }
    return ({ disk with policy := some policy, sequence := some 0 }, policy)

def bumpSequence (disk : RegistryDisk Scenario) : Except String (RegistryDisk Scenario) := do
  let sequence ← disk.readSequence
  return { disk with sequence := some (saturatingAdd sequence 1) }

def restore (disk : RegistryDisk Scenario) : RegistryUndo → RegistryDisk Scenario
  | .policy previous => { disk with policy := some previous }
  | .package coordinates => { disk with packages := disk.packages.erase coordinates }

end RegistryDisk

def packagePath (packageId version : String) : Except String Coordinates := do
  validateRegistryId packageId "package"
  validateVersion version
  return (packageId, version)

/-- The inspection of a bundle whose signature and scenarios must hold. -/
def inspectSound (gates : PackageGates) (bundle : FaiBundle gates.Scenario) (error : String) :
    Except String FaiPackageInspection := do
  let inspection ← PackageState.memory.inspect gates bundle
  bailIf (inspection.signatureValid = false ∨ inspection.scenariosPassed = false) error
  return inspection

namespace RegistryChange
variable {gates : RegistryGates}

/-- What a change checks before it reads the policy. -/
def check {Scenario : Type} (disk : RegistryDisk Scenario) :
    RegistryChange Scenario → Except String Unit
  | .approveSigner signer => validateSigner signer.id signer.publicKeyHex
  | .publish _ => .ok ()
  | .revoke packageId version reason _ => do
    validateRegistryId packageId "package"
    validateVersion version
    bailIf (trim reason = "" ∨ 500 < charCount reason) "revocation reason is empty or too long"
    let path ← packagePath packageId version
    bailIf (path ∉ disk.packages) "cannot revoke a package version that is not published"

/-- What a change writes under the policy that it has read. -/
def write (gates : RegistryGates) (disk : RegistryDisk gates.Scenario) (policy : FaiRegistryPolicy)
    :
    RegistryChange gates.Scenario → Except String (RegistryWrite gates.Scenario)
  | .approveSigner signer =>
    let changed := { policy with
      approvedSigners :=
        policy.approvedSigners.insert signer.id (toAsciiLowercase signer.publicKeyHex) }
    .ok { disk := { disk with policy := some changed }, undo := .policy policy,
          reply := .policy changed }
  | .publish bundle => do
    let inspection ← inspectSound gates.toPackageGates bundle
      "registry publish requires a valid signature and passing scenarios"
    bailIf (¬ (policy.approvedSigners[bundle.manifest.signer.id]?.any fun key =>
        toAsciiLowercase key == toAsciiLowercase bundle.manifest.signer.publicKeyHex) = true)
      "package signer is not approved by registry policy"
    bailIf (policy.isRevoked bundle.manifest.id bundle.manifest.version = true)
      "revoked package coordinates cannot be republished"
    validateVersion bundle.manifest.version
    let path ← packagePath bundle.manifest.id bundle.manifest.version
    bailIf (path ∈ disk.packages) "registry package version is immutable and already exists"
    return { disk := { disk with packages := disk.packages.insert path bundle },
             undo := .package path, reply := .entry (policy.entry bundle inspection) }
  | .revoke packageId version reason now => do
    bailIf (policy.isRevoked packageId version = true) "package version is already revoked"
    let revocation : FaiCatalogRevocation :=
      { packageId, version, reason := trim reason, revokedAtUnix := now }
    return { disk := { disk with policy := some { policy with
                         revoked := policy.revoked ++ [revocation] } },
             undo := .policy policy, reply := .revocation revocation }

/-- A change by itself, when everything can be written. -/
def perform (gates : RegistryGates) (disk : RegistryDisk gates.Scenario)
    (change : RegistryChange gates.Scenario) :
    Except String (RegistryDisk gates.Scenario × RegistryReply) := do
  change.check disk
  let policy ← disk.readPolicy
  let written ← change.write gates disk policy
  let bumped ← written.disk.bumpSequence
  return (bumped, written.reply)

end RegistryChange

/-! Reading. -/

/-- What a catalog lists for a bundle file; it passes over the file when it is too long. -/
def scanFile (gates : RegistryGates) (policy : FaiRegistryPolicy) (file : FaiBundle gates.Scenario)
    : Except String (Option FaiListedEntry) :=
  if maxBundleBytes < gates.prettyLen file then .ok none
  else do
    let bundle ← gates.readBundle file
    let inspection ← inspectSound gates.toPackageGates bundle
      "registry contains an invalid package"
    return some (policy.entry bundle inspection)

def scanFiles (gates : RegistryGates) (policy : FaiRegistryPolicy) :
    List (FaiBundle gates.Scenario) → Except String (List FaiListedEntry)
  | [] => .ok []
  | file :: files => do
    let found ← scanFile gates policy file
    let rest ← scanFiles gates policy files
    return found.toList ++ rest

/-- The catalog of what was found, signed. -/
def signCatalog (gates : RegistryGates) (policy : FaiRegistryPolicy) (sequence now : ℕ)
    (found : List FaiListedEntry) : FaiSignedCatalog :=
  let catalog : FaiRegistryCatalog :=
    { version := privateRegistryVersion, registryId := policy.registryId, sequence,
      generatedAtUnix := now,
      packages := found.insertionSort fun left right =>
        (compare left.coordinates right.coordinates).isLE = true }
  { catalog, signingPublicKeyHex := gates.signingPublicKeyHex, signatureHex := gates.sign catalog }

namespace RegistryDisk
variable {gates : RegistryGates}

/-- The files are taken in the order of their paths; the catalog is sorted in any case. -/
def catalog (gates : RegistryGates) (disk : RegistryDisk gates.Scenario) (now : ℕ) :
    Except String FaiSignedCatalog := do
  let policy ← disk.readPolicy
  let sequence ← disk.readSequence
  let found ← scanFiles gates policy (disk.packages.toList.map Prod.snd)
  return signCatalog gates policy sequence now found

def package (gates : RegistryGates) (disk : RegistryDisk gates.Scenario)
    (packageId version : String) : Except String (FaiBundle gates.Scenario) := do
  let policy ← disk.readPolicy
  bailIf (policy.isRevoked packageId version = true) "package version is revoked"
  let path ← packagePath packageId version
  let file ← okOr disk.packages[path]? "No such file or directory (os error 2)"
  bailIf (maxBundleBytes < gates.prettyLen file) "registry package file is unsafe or oversized"
  let bundle ← gates.readBundle file
  let _ ← inspectSound gates.toPackageGates bundle "registry package verification failed"
  return bundle

end RegistryDisk

section
variable {gates : RegistryGates} {disk : RegistryDisk gates.Scenario} {policy : FaiRegistryPolicy}
  {ch : RegistryChange gates.Scenario} {wr : RegistryWrite gates.Scenario}
  {bundle : FaiBundle gates.Scenario} {inspection : FaiPackageInspection} {err : String}
  {c : Coordinates}

theorem readPolicy_eq_ok : disk.readPolicy = .ok policy ↔ disk.policy = some policy ∧
    byteLen policy.pretty ≤ maxPolicyBytes ∧ policy.validate = .ok () := by
  simp only [RegistryDisk.readPolicy, bind_eq_ok, okOr_eq_ok, bailIf_eq_ok, pure_eq_ok, not_lt]
  constructor
  · rintro ⟨found, hf, -, hs, u, hv, rfl⟩
    exact ⟨hf, hs, hv⟩
  · rintro ⟨hf, hs, hv⟩
    exact ⟨policy, hf, (), hs, (), hv, rfl⟩

theorem inspectSound_eq_ok : inspectSound gates.toPackageGates bundle err = .ok inspection ↔
    PackageState.memory.inspect gates.toPackageGates bundle = .ok inspection ∧
      inspection.signatureValid ∧ inspection.scenariosPassed := by
  simp only [inspectSound, bind_eq_ok, bailIf_eq_ok, pure_eq_ok, not_or, Bool.not_eq_false]
  constructor
  · rintro ⟨found, hf, -, hs, rfl⟩
    exact ⟨hf, hs⟩
  · rintro ⟨hf, hs⟩
    exact ⟨inspection, hf, (), hs, rfl⟩

/-- The policy that a change writes over the one it has read. -/
def RegistryChange.changed {Scenario : Type} (policy : FaiRegistryPolicy) :
    RegistryChange Scenario → FaiRegistryPolicy
  | .approveSigner signer => { policy with
      approvedSigners :=
        policy.approvedSigners.insert signer.id (toAsciiLowercase signer.publicKeyHex) }
  | .publish _ => policy
  | .revoke packageId version reason now => { policy with
      revoked := policy.revoked ++
        [{ packageId, version, reason := trim reason, revokedAtUnix := now }] }

def RegistryChange.bundle? {Scenario : Type} : RegistryChange Scenario → Option (FaiBundle Scenario)
  | .publish bundle => some bundle
  | .approveSigner _ | .revoke .. => none

theorem packagePath_eq_ok {pid ver : String} : packagePath pid ver = .ok c ↔
    validateRegistryId pid "package" = .ok () ∧ validateVersion ver = .ok () ∧
      (pid, ver) = c := by
  rw [packagePath, unit_bind_eq_ok, unit_bind_eq_ok, pure_eq_ok]

/-- A change writes a policy, or the file of a new bundle. -/
theorem write_cases (h : ch.write gates disk policy = .ok wr) :
    (ch.bundle? = none ∧ wr.undo = .policy policy ∧
      wr.disk = { disk with policy := some (ch.changed policy) }) ∨
    ∃ bundle inspection err, ch = .publish bundle ∧
      inspectSound gates.toPackageGates bundle err = .ok inspection ∧
      packagePath bundle.manifest.id bundle.manifest.version = .ok bundle.coordinates ∧
      bundle.coordinates ∉ disk.packages ∧ wr.undo = .package bundle.coordinates ∧
      wr.disk = { disk with packages := disk.packages.insert bundle.coordinates bundle } := by
  cases ch with
  | approveSigner signer =>
    obtain rfl := Except.ok.inj h
    exact .inl ⟨rfl, rfl, rfl⟩
  | revoke pid ver rsn now =>
    rw [RegistryChange.write, unit_bind_eq_ok, pure_eq_ok] at h
    obtain ⟨-, rfl⟩ := h
    exact .inl ⟨rfl, rfl, rfl⟩
  | publish bundle =>
    simp only [RegistryChange.write, bind_eq_ok, pure_eq_ok, bailIf_eq_ok] at h
    obtain ⟨inspection, hi, -, -, -, -, -, -, path, hp, -, hn, rfl⟩ := h
    obtain ⟨-, -, rfl⟩ := (packagePath_eq_ok).mp hp
    exact .inr ⟨bundle, inspection, _, rfl, hi, hp, hn, rfl, rfl⟩

end

end FocalDesk
