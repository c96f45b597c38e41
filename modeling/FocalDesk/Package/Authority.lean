import FocalDesk.Agent.Registration
import FocalDesk.Package.Dependencies

/-! The review of the authority that a new version of a package adds. -/
namespace FocalDesk
open Library List

variable {urls : UrlParser} {old new : FaiPackagePayload} {agent : AgentDefinition}
  {policy : CapabilityPolicy} {tool : String} {arguments : Value} {member : String × Value}

structure FaiCatalogEntry where
  packageId : String
  version : String
  dependencies : List FaiPackageDependency
  authority : FaiAuthoritySummary

structure FaiRegistryCompatibility where
  packageId : String
  fromVersion : String
  toVersion : String
  authorityAdded : FaiAuthoritySummary
  authorityRemoved : FaiAuthoritySummary
  dependenciesChanged : Bool
  requiresAuthorityReview : Bool

/-- The registry's copy of `authority_delta`. -/
def authorityDifference (old new : FaiAuthoritySummary) : FaiAuthoritySummary :=
  authorityDelta old new

def authorityIsEmpty (authority : FaiAuthoritySummary) : Bool :=
  authority.tools.isEmpty && authority.networkDomains.isEmpty && authority.secretHandles.isEmpty &&
    authority.eventSources.isEmpty && authority.agentTriggers == 0 && authority.workflowNodes == 0 &&
    authority.routines == 0 && authority.connectorRuntimes == 0

def findEntry (packages : List FaiCatalogEntry) (packageId version : String) :
    Except String FaiCatalogEntry :=
  okOr (packages.find? fun entry => entry.packageId == packageId && entry.version == version)
    ("catalog does not contain " ++ packageId ++ " " ++ version)

/-- The report on two entries. -/
def compatibility (packageId fromVersion toVersion : String) (old new : FaiCatalogEntry) :
    FaiRegistryCompatibility :=
  let added := authorityDifference old.authority new.authority
  let removed := authorityDifference new.authority old.authority
  { packageId, fromVersion, toVersion
    authorityAdded := added
    authorityRemoved := removed
    dependenciesChanged := decide (old.dependencies ≠ new.dependencies)
    requiresAuthorityReview := !authorityIsEmpty added }

def compareCatalogVersions (packages : List FaiCatalogEntry)
    (packageId fromVersion toVersion : String) : Except String FaiRegistryCompatibility := do
  let old ← findEntry packages packageId fromVersion
  let new ← findEntry packages packageId toVersion
  return compatibility packageId fromVersion toVersion old new

/-- `entry`: the registry lists a bundle under the authority its inspection found. -/
def catalogEntry {Scenario : Type} (bundle : FaiBundle Scenario) : FaiCatalogEntry :=
  { packageId := bundle.manifest.id, version := bundle.manifest.version,
    dependencies := bundle.manifest.dependencies, authority := authority bundle.payload }

/-! What a payload names. -/

namespace FaiPackagePayload

def namedOrigins (payload : FaiPackagePayload) : List String :=
  payload.policies.flatMap (fun policy => policy.networkOrigins.getD []) ++
    payload.connectors.flatMap ConnectorManifest.networkDomains

def namedSecrets (payload : FaiPackagePayload) : List String :=
  payload.policies.flatMap (fun policy => policy.secretHandles.getD []) ++
    payload.connectors.filterMap ConnectorManifest.signingKeyHandle

def sources (payload : FaiPackagePayload) : List EventSource :=
  payload.connectors.flatMap ConnectorManifest.eventSources

end FaiPackagePayload

/-- The new payload names nothing that the old one does not name. -/
structure AuthorityWithin (old new : FaiPackagePayload) : Prop where
  tools : ∀ agent ∈ new.agents, ∀ tool ∈ agent.toolAllowlist,
    ∃ agent ∈ old.agents, tool ∈ agent.toolAllowlist
  origins : ∀ origin ∈ new.namedOrigins, origin ∈ old.namedOrigins
  secrets : ∀ handle ∈ new.namedSecrets, handle ∈ old.namedSecrets
  sources : ∀ source ∈ new.sources, source ∈ old.sources
  triggers : (new.agents.map fun agent => agent.triggers.length).sum ≤
    (old.agents.map fun agent => agent.triggers.length).sum
  nodes : (new.workflows.map fun workflow => workflow.nodes.length).sum ≤
    (old.workflows.map fun workflow => workflow.nodes.length).sum
  routines : new.routines.length ≤ old.routines.length
  runtimes : (new.connectors.filter fun connector => connector.runtime.isSome).length ≤
    (old.connectors.filter fun connector => connector.runtime.isSome).length

theorem difference_eq_nil {α : Type} [DecidableEq α] {old new : List α} :
    difference old new = [] ↔ ∀ v ∈ new, v ∈ old := by
  simp [difference, filter_eq_nil_iff]

theorem difference_sortDedup {α : Type} [DecidableEq α] [Ord α] {old new : List α} :
    difference (sortDedup old) (sortDedup new) = [] ↔ ∀ v ∈ new, v ∈ old := by
  simp only [difference_eq_nil, mem_sortDedup]

/-- The report is empty exactly when nothing that the summary lists is new. -/
theorem authorityDelta_isEmpty_iff :
    authorityIsEmpty (authorityDelta (authority old) (authority new)) ↔
      AuthorityWithin old new := by
  have ht : (∀ tool ∈ new.agents.flatMap AgentDefinition.toolAllowlist,
      tool ∈ old.agents.flatMap AgentDefinition.toolAllowlist) ↔
        ∀ agent ∈ new.agents, ∀ tool ∈ agent.toolAllowlist,
          ∃ agent ∈ old.agents, tool ∈ agent.toolAllowlist := by
    simp only [List.mem_flatMap]
    constructor
    · intro h agent ha tool hto
      exact h tool ⟨agent, ha, hto⟩
    · rintro h tool ⟨agent, ha, hto⟩
      exact h agent ha tool hto
  simp only [authorityIsEmpty, authorityDelta, authority, Bool.and_eq_true, List.isEmpty_iff,
    beq_iff_eq, difference_sortDedup, Nat.sub_eq_zero_iff_le, ht]
  constructor
  · rintro ⟨⟨⟨⟨⟨⟨⟨ht, ho⟩, hs⟩, hsr⟩, htr⟩, hn⟩, hr⟩, hru⟩
    exact ⟨ht, ho, hs, hsr, htr, hn, hr, hru⟩
  · intro h
    exact ⟨⟨⟨⟨⟨⟨⟨h.tools, h.origins⟩, h.secrets⟩, h.sources⟩, h.triggers⟩, h.nodes⟩, h.routines⟩,
      h.runtimes⟩

/-! Calls. -/

/-- A tool call that an agent may make under its allow-list and its policy. -/
def AgentDefinition.MayCall (urls : UrlParser) (agent : AgentDefinition) (tool : String)
    (arguments : Value) : Prop :=
  tool ∈ agent.toolAllowlist ∧ (Service.leasePolicy agent none).authorize urls tool arguments = .ok ()

/-- A scoped network or secret argument is one that the payload names. -/
structure NamedBy (urls : UrlParser) (payload : FaiPackagePayload) (policy : CapabilityPolicy)
    (member : String × Value) : Prop where
  origin : policy.networkOrigins.isSome = true → member.1 = "url" ∨ member.1 = "origin" →
    ∀ text, member.2.asStr = some text → ∃ parsed, urls.parse text = .ok parsed ∧
      ∃ origin ∈ payload.namedOrigins, trimSlashes origin = parsed.origin
  secret : policy.secretHandles.isSome = true → member.1 = "secret_handle" →
    ∃ handle ∈ payload.namedSecrets, member.2 = .string handle

/-- Every call of the new payload uses a tool of the old one, on scoped resources it names. -/
def CallsWithin (urls : UrlParser) (old new : FaiPackagePayload) : Prop :=
  ∀ agent ∈ new.agents, ∀ tool arguments, agent.MayCall urls tool arguments →
    (∃ agent ∈ old.agents, tool ∈ agent.toolAllowlist) ∧
      ∀ policy ∈ agent.capabilityPolicy, ∀ member ∈ visited arguments,
        NamedBy urls old policy member

theorem mem_policies (ha : agent ∈ new.agents) (hp : agent.capabilityPolicy = some policy) :
    policy ∈ new.policies :=
  mem_append_left _ (mem_filterMap.mpr ⟨agent, ha, hp⟩)

theorem namedBy_of_authorizeArgument (hpo : policy ∈ new.policies)
    (h : policy.authorizeArgument urls member.1 member.2 = .ok ()) :
    NamedBy urls new policy member := by
  constructor
  · intro hs hk text hte
    obtain ⟨origins, ho⟩ := Option.isSome_iff_exists.mp hs
    have ht : authorizeText (authorizeOrigin urls policy.networkOrigins) member.2 = .ok () := by
      rcases hk with hk | hk
      · rwa [hk] at h
      · rwa [hk] at h
    rw [authorizeText, hte, ho] at ht
    obtain ⟨parsed, hp, origin, hor, hsa⟩ := authorizeOrigin_some.mp ht
    refine ⟨parsed, hp, origin, mem_append_left _ ?_, hsa⟩
    exact mem_flatMap.mpr ⟨policy, hpo, by rw [ho]; exact hor⟩
  · intro hs hk
    obtain ⟨handles, hha⟩ := Option.isSome_iff_exists.mp hs
    have hv : authorizeValue policy.secretHandles member.2 "secret handle" = .ok () := by
      rwa [hk] at h
    rw [hha] at hv
    obtain ⟨hd, hh, hsa⟩ := authorizeValue_some.mp hv
    refine ⟨hd, mem_append_left _ ?_, hsa⟩
    exact mem_flatMap.mpr ⟨policy, hpo, by rw [hha]; exact hh⟩

theorem NamedBy.mono (h : NamedBy urls new policy member) (hw : AuthorityWithin old new) :
    NamedBy urls old policy member := by
  constructor
  · intro hs hk text ht
    obtain ⟨parsed, hp, origin, ho, hsa⟩ := h.origin hs hk text ht
    exact ⟨parsed, hp, origin, hw.origins origin ho, hsa⟩
  · intro hs hk
    obtain ⟨hd, hh, hsa⟩ := h.secret hs hk
    exact ⟨hd, hw.secrets hd hh, hsa⟩

theorem AuthorityWithin.calls (h : AuthorityWithin old new) : CallsWithin urls old new := by
  rintro agent hag tool arguments ⟨ht, ha⟩
  refine ⟨h.tools agent hag tool ht, fun policy hp member hm => ?_⟩
  have hl : Service.leasePolicy agent none = policy := by
    rw [Service.leasePolicy, hp]
    rfl
  rw [hl] at ha
  have har := authorize_eq_ok.mp ha member hm
  exact (namedBy_of_authorizeArgument (mem_policies hag hp) har).mono h

/-! The report. -/

theorem findEntry_map {Scenario : Type} {bundles : List (FaiBundle Scenario)}
    {bun : FaiBundle Scenario} {pid ver : String}
    (h : bundles.find? (fun bun =>
      bun.manifest.id == pid && bun.manifest.version == ver) = some bun) :
    findEntry (bundles.map catalogEntry) pid ver = .ok (catalogEntry bun) := by
  have hf : (bundles.map catalogEntry).find? (fun e =>
      e.packageId == pid && e.version == ver) = some (catalogEntry bun) := by
    rw [find?_map]
    exact congrArg (Option.map catalogEntry) h
  rw [findEntry, hf]
  rfl

/-- What a report without a review says about two versions in the catalog of a registry. -/
theorem authority_review (gates : PackageGates) (bundles : List (FaiBundle gates.Scenario))
    (packageId fromVersion toVersion : String) (old new : FaiBundle gates.Scenario)
    (hold : bundles.find? (fun bundle => bundle.manifest.id == packageId &&
      bundle.manifest.version == fromVersion) = some old)
    (hnew : bundles.find? (fun bundle => bundle.manifest.id == packageId &&
      bundle.manifest.version == toVersion) = some new) :
    ∃ report, compareCatalogVersions (bundles.map catalogEntry) packageId fromVersion toVersion =
        .ok report ∧
      (report.requiresAuthorityReview = false ↔ AuthorityWithin old.payload new.payload) ∧
      (report.requiresAuthorityReview = false → CallsWithin gates.urls old.payload new.payload) ∧
      ∀ (state : PackageState gates.Scenario) (inspection : FaiPackageInspection),
        state.active new.manifest.id = some old → state.inspect gates new = .ok inspection →
          inspection.authorityDelta = some report.authorityAdded := by
  have hif : (!authorityIsEmpty (authorityDifference (authority old.payload)
      (authority new.payload))) = false ↔ AuthorityWithin old.payload new.payload := by
    rw [Bool.not_eq_false', authorityDifference]
    exact authorityDelta_isEmpty_iff
  have hc : compareCatalogVersions (bundles.map catalogEntry) packageId fromVersion toVersion =
      .ok (compatibility packageId fromVersion toVersion (catalogEntry old) (catalogEntry new)) := by
    rw [compareCatalogVersions, findEntry_map hold, findEntry_map hnew]
    rfl
  refine ⟨_, hc, hif, fun h => (hif.mp h).calls, ?_⟩
  intro state inspection ha hi
  simp only [PackageState.inspect, bind_eq_ok, pure_eq_ok] at hi
  obtain ⟨-, -, rfl⟩ := hi
  simp only [ha]
  rfl

def readerPolicy : CapabilityPolicy :=
  { CapabilityPolicy.default with filesystemRoots := some ["/home"], networkOrigins := some [] }

def readerAgent (capabilityPolicy : Option CapabilityPolicy) : AgentDefinition :=
  { builtInAgent "reader" "Reader" "" "" ["read_file"] false with
    capabilityPolicy, builtIn := false }

/-- A package of one agent. -/
def readerBundle (version : String) (capabilityPolicy : Option CapabilityPolicy) : FaiBundle Unit :=
  { exampleBundle "reader" version "" [] with
    payload := { agents := [readerAgent capabilityPolicy], workflows := [], routines := [],
                 connectors := [] } }

theorem authority_review_sample :
    ∃ report, compareCatalogVersions ([readerBundle "1" none, readerBundle "2" (some readerPolicy)].map
        catalogEntry) "reader" "1" "2" = .ok report ∧ report.requiresAuthorityReview = false ∧
      CallsWithin exampleUrls (readerBundle "1" none).payload
        (readerBundle "2" (some readerPolicy)).payload := by
  obtain ⟨report, hre, hi, hc, -⟩ := authority_review openGates
    [readerBundle "1" none, readerBundle "2" (some readerPolicy)] "reader" "1" "2"
    (readerBundle "1" none) (readerBundle "2" (some readerPolicy)) rfl rfl
  have hr : report.requiresAuthorityReview = false :=
    hi.mpr ((authorityDelta_isEmpty_iff).mp (by decide +kernel))
  exact ⟨report, hre, hr, hc hr⟩

/-- An update that drops the policy of an agent is reported as one without new authority. -/
theorem dropped_policy_needs_no_review :
    (readerBundle "1" (some readerPolicy)).validate openGates = .ok () ∧
      (readerBundle "2" none).validate openGates = .ok () ∧
      (compareCatalogVersions ([readerBundle "1" (some readerPolicy), readerBundle "2" none].map
        catalogEntry) "reader" "1" "2").toOption.map
          FaiRegistryCompatibility.requiresAuthorityReview = some false ∧
      ∃ arguments, (∃ agent ∈ (readerBundle "2" none).payload.agents,
          agent.MayCall exampleUrls "read_file" arguments) ∧
        ∀ agent ∈ (readerBundle "1" (some readerPolicy)).payload.agents,
          ¬ agent.MayCall exampleUrls "read_file" arguments := by
  refine ⟨by decide +kernel, by decide +kernel, by decide +kernel,
    .object [("path", .string "/etc/passwd")], ⟨readerAgent none, mem_singleton_self _, ?_⟩, ?_⟩
  · exact ⟨mem_singleton_self _, by decide +kernel⟩
  · rintro agent hag ⟨-, ha⟩
    obtain rfl := mem_singleton.mp hag
    exact absurd ha (by decide +kernel)

end FocalDesk
