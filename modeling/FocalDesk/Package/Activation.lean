import FocalDesk.Package.Dependencies

/-! Activation of a package by the service, which rebuilds the registries from the active
bundles and selects the previous bundle again when that fails. -/
namespace FocalDesk
open Library PackageCall

inductive PackageAgentReloadMode where
  | restorePersisted
  | disableForActivation
deriving DecidableEq

/-- What the service keeps of the packages. -/
structure PackageService (gates : PackageGates) where
  manager : PackageState gates.Scenario
  agentDefinitions : BTreeMap String AgentDefinition
  workflowDefinitions : BTreeMap String WorkflowDefinition
  routines : RoutineRegistry
  connectors : ConnectorRegistryState
  /-- The persisted enablement of agents, when there is a run store. -/
  agentOverrides : Option (BTreeMap String Bool)
  disabledAgents : List String

/-- What a reload meets on disk: the directory of custom agents, and how its writes and reads
end. The writes of the trust store are numbered. -/
structure ReloadIo where
  agentDirectory : Except String (List AgentDefinition)
  installPersist : ℕ → Except String Unit
  readOverrides : Except String Unit
  writeOverrides : Except String Unit

def insertDefinitions {α : Type} (id : α → String) (error : String) :
    BTreeMap String α → List α → Except String (BTreeMap String α)
  | definitions, [] => .ok definitions
  | definitions, item :: items => do
    bailIf (id item ∈ definitions) error
    insertDefinitions id error (definitions.insert (id item) item) items

def indexDefinitions {α : Type} (id : α → String) (definitions : List α) : BTreeMap String α :=
  definitions.foldl (fun index definition => index.insert (id definition) definition) ∅

/-- The agent and workflow registries with the definitions of the bundles. -/
def insertBundles {Scenario : Type} :
    BTreeMap String AgentDefinition → BTreeMap String WorkflowDefinition →
      List (FaiBundle Scenario) →
      Except String (BTreeMap String AgentDefinition × BTreeMap String WorkflowDefinition)
  | agents, workflows, [] => .ok (agents, workflows)
  | agents, workflows, bundle :: bundles => do
    let agents ← insertDefinitions AgentDefinition.id
      "package agent identity conflicts with an installed agent" agents bundle.payload.agents
    let workflows ← insertDefinitions WorkflowDefinition.id
      "package workflow identity conflicts with an installed workflow" workflows
      bundle.payload.workflows
    insertBundles agents workflows bundles

def packageRegistries {Scenario : Type} (io : ReloadIo) (bundles : List (FaiBundle Scenario)) :
    Except String (BTreeMap String AgentDefinition × BTreeMap String WorkflowDefinition) := do
  let custom ← io.agentDirectory
  let agents ← insertDefinitions AgentDefinition.id "custom agent conflicts with a built-in agent"
    (indexDefinitions AgentDefinition.id builtInAgents) custom
  insertBundles agents (indexDefinitions WorkflowDefinition.id builtInWorkflows) bundles

/-- Installs the connectors whose manifest is not the installed one. A failure leaves those
before it installed. -/
def installConnectors (io : ReloadIo) : ℕ → ConnectorRegistryState → List ConnectorManifest →
    ConnectorRegistryState × Except String Unit
  | _, connectors, [] => (connectors, .ok ())
  | write, connectors, manifest :: manifests =>
    let installed := (statuses connectors).find? fun status => status.manifest.id == manifest.id
    if installed.all fun status => status.manifest != manifest then
      match connectors.install manifest true (io.installPersist write) with
      | (connectors, .error error) => (connectors, .error error)
      | (connectors, .ok _) => installConnectors io (write + 1) connectors manifests
    else installConnectors io write connectors manifests

/-- The persisted enablement after a reload, and that of each packaged agent. -/
def packageAgentEnabled (io : ReloadIo) (mode : PackageAgentReloadMode)
    (overrides : Option (BTreeMap String Bool)) (ids : List String) :
    Except String (Option (BTreeMap String Bool) × List (String × Bool)) :=
  match overrides, mode with
  | none, _ => .ok (none, ids.map fun id => (id, false))
  | some overrides, .restorePersisted => do
    if ids ≠ [] then io.readOverrides
    io.writeOverrides
    let missing := ids.filter fun id => id ∉ overrides
    return (some (missing.foldl (fun overrides id => overrides.insert id false) overrides),
      ids.map fun id => (id, overrides[id]?.getD false))
  | some overrides, .disableForActivation => do
    io.writeOverrides
    return (some (ids.foldl (fun overrides id => overrides.insert id false) overrides),
      ids.map fun id => (id, false))

def applyEnabled (disabled : List String) : List (String × Bool) → List String
  | [] => disabled
  | (id, enabled) :: rest =>
    applyEnabled (if enabled then disabled.filter (· ≠ id) else disabled.insert id) rest

namespace PackageService
variable {gates : PackageGates}

/-- `reload_active_packages` -/
def reload (io : ReloadIo) (mode : PackageAgentReloadMode) (service : PackageService gates) :
    PackageService gates × Except String Unit :=
  let bundles := service.manager.activeBundles
  match packageRegistries io bundles with
  | .error error => (service, .error error)
  | .ok (agents, workflows) =>
    match replacePackageDefinitions (bundles.flatMap fun bundle => bundle.payload.routines) with
    | .error error => (service, .error error)
    | .ok routines =>
      let service := { service with routines }
      match installConnectors io 0 service.connectors
          (bundles.flatMap fun bundle => bundle.payload.connectors) with
      | (connectors, .error error) => ({ service with connectors }, .error error)
      | (connectors, .ok ()) =>
        let ids := bundles.flatMap fun bundle => bundle.payload.agents.map AgentDefinition.id
        match packageAgentEnabled io mode service.agentOverrides ids with
        | .error error => ({ service with connectors }, .error error)
        | .ok (overrides, enabled) =>
          ({ service with
              connectors
              agentOverrides := overrides
              agentDefinitions := agents
              workflowDefinitions := workflows
              disabledAgents := applyEnabled service.disabledAgents enabled }, .ok ())

end PackageService

/-- What an activation meets on disk. -/
structure ActivationIo where
  activatePersist : Except String Unit
  rollbackPersist : Except String Unit
  reload : ReloadIo
  reloadPrevious : ReloadIo

variable {gates : PackageGates} {io : ReloadIo} {mode : PackageAgentReloadMode}
  {service : PackageService gates} {manager next : PackageState gates.Scenario}
  {packageId key : String} {bun : FaiBundle gates.Scenario}

namespace PackageService

/-- `activate_package`. The error of a rollback is discarded, as is that of the reload after it. -/
def activatePackage (io : ActivationIo) (service : PackageService gates) (packageId : String) :
    PackageService gates × Except String Unit :=
  match (PackageCall.activate packageId).perform gates service.manager io.activatePersist with
  | (_, .error error) => (service, .error error)
  | (manager, .ok ()) =>
    match { service with manager }.reload io.reload .disableForActivation with
    | (service, .ok ()) => (service, .ok ())
    | (service, .error error) =>
      let rolledBack :=
        ((PackageCall.rollback packageId).perform gates service.manager io.rollbackPersist).1
      (({ service with manager := rolledBack }.reload io.reloadPrevious .restorePersisted).1,
        .error ("package activation was rolled back: " ++ error))

end PackageService

/-- An activation that fails leaves every package as active as it was, and with it the outcome
of any later reload. -/
structure Atomic (io : ActivationIo) (service : PackageService gates) (packageId : String) :
    Prop where
  active : ∀ error, (service.activatePackage io packageId).2 = .error error → ∀ key,
    (service.activatePackage io packageId).1.manager.active key = service.manager.active key
  reload : ∀ error, (service.activatePackage io packageId).2 = .error error →
    ∀ (later : ReloadIo) (mode : PackageAgentReloadMode) (other : PackageService gates),
      ({ other with manager := (service.activatePackage io packageId).1.manager }.reload
          later mode).2 = ({ other with manager := service.manager }.reload later mode).2

/-- Once the registries cannot be rebuilt with the staged bundle, a previous bundle can be
selected again, or the staged bundle was active already. -/
def Reversible (io : ActivationIo) (service : PackageService gates) (packageId : String) : Prop :=
  ∀ manager staged, service.manager.activate packageId = .ok (manager, staged) →
    validatePackageId packageId "package" = .ok () → io.activatePersist = .ok () →
    ({ service with manager }.reload io.reload .disableForActivation).2 ≠ .ok () →
      ((service.manager.active packageId).isSome = true ∧ io.rollbackPersist = .ok ()) ∨
        service.manager.active packageId = some staged

/-! Reloads. -/

theorem reload_manager : (service.reload io mode).1.manager = service.manager := by
  simp only [PackageService.reload]
  split
  · rfl
  · split
    · rfl
    · split
      · rfl
      · split <;> rfl

theorem activeBundles_congr (h : ∀ key, next.active key = manager.active key) :
    next.activeBundles = manager.activeBundles := by
  have hb : ∀ st : PackageState gates.Scenario, st.activeBundles =
      (st.packages.filterMap fun _ r => r.active).toList.map Prod.snd := by
    intro st
    rw [Std.ExtTreeMap.toList_filterMap, List.map_filterMap, PackageState.activeBundles]
    congr 1
    funext ⟨key, r⟩
    cases ha : r.active <;> simp [ha]
  rw [hb, hb]
  congr 2
  apply Std.ExtTreeMap.ext_getElem?
  intro key
  rw [Std.ExtTreeMap.getElem?_filterMap', Std.ExtTreeMap.getElem?_filterMap']
  exact h key

/-- A reload sees of the manager only the active bundles. -/
theorem reload_congr (h : next.activeBundles = manager.activeBundles) :
    ({ service with manager := next }.reload io mode).2 =
      ({ service with manager }.reload io mode).2 := by
  simp only [PackageService.reload, h]
  split
  · rfl
  · split
    · rfl
    · split
      · rfl
      · split <;> rfl

/-! Activation and the rollback after it. -/

theorem activate_eq_ok : manager.activate packageId = .ok (next, bun) ↔
    ∃ r, manager.packages[packageId]? = some r ∧ r.staged = some bun ∧
      next = ({ manager with
        packages := manager.packages.insert packageId ⟨none, some bun, r.active⟩ }) := by
  simp only [PackageState.activate, bind_eq_ok, okOr_eq_ok, pure_eq_ok, Prod.mk.injEq]
  constructor
  · rintro ⟨r, hr, staged, hs, rfl, rfl⟩
    exact ⟨r, hr, hs, rfl⟩
  · rintro ⟨r, hr, hs, rfl⟩
    exact ⟨r, hr, bun, hs, rfl, rfl⟩

theorem perform_activate (manager : PackageState gates.Scenario) (packageId : String)
    (persist : Except String Unit) :
    (∃ error, (activate packageId).perform gates manager persist =
      (manager, .error error)) ∨
    ∃ next bun, manager.activate packageId = .ok (next, bun) ∧
      validatePackageId packageId "package" = .ok () ∧ persist = .ok () := by
  simp only [perform, check, mutate]
  cases hc : validatePackageId packageId "package" with
  | error error => exact .inl ⟨error, rfl⟩
  | ok =>
    cases hactivate : manager.activate packageId with
    | error error => exact .inl ⟨error, rfl⟩
    | ok sel =>
      cases persist with
      | error error => exact .inl ⟨error, rfl⟩
      | ok => exact .inr ⟨sel.1, sel.2, rfl, rfl, rfl⟩

/-- A rollback right after an activation selects what was active before, if there was any. -/
theorem active_rollback {persist : Except String Unit}
    (hid : validatePackageId packageId "package" = .ok ())
    (h : manager.activate packageId = .ok (next, bun)) :
    ((rollback packageId).perform gates next persist).1.active key =
      if key = packageId then
        if (manager.active packageId).isSome ∧ persist = .ok () then
          manager.active packageId
        else some bun
      else manager.active key := by
  obtain ⟨r, hr, hs, hn⟩ := (activate_eq_ok).mp h
  have ha : manager.active packageId = r.active := by
    simp [PackageState.active, hr]
  have hr' : next.packages[packageId]? = some ⟨none, some bun, r.active⟩ := by
    rw [hn, Std.ExtTreeMap.getElem?_insert_self]
  have hk : next.active key = if key = packageId then some bun else manager.active key := by
    rw [hn, active_insert]
  simp only [perform, check, mutate, hid, ha]
  cases hp : r.active with
  | none =>
    rw [hp] at hr'
    simp [PackageState.rollback, hr', okOr, bind, Except.bind, Except.map, hk]
  | some prev =>
    rw [hp] at hr'
    cases persist with
    | error error =>
      simp [PackageState.rollback, hr', okOr, bind, Except.bind, Except.map, pure, Except.pure, hk]
    | ok =>
      simp only [PackageState.rollback, hr', okOr, bind, Except.bind, Except.map, pure,
        Except.pure, active_insert, hk]
      by_cases hke : key = packageId
      · simp [hke]
      · simp [hke]

section Failure
variable {io : ActivationIo} {staged : FaiBundle gates.Scenario}
  (hactivate : service.manager.activate packageId = .ok (manager, staged))
  (hid : validatePackageId packageId "package" = .ok ()) (hpersist : io.activatePersist = .ok ())
include hactivate hid hpersist

theorem activatePackage_of_persisted : service.activatePackage io packageId =
    match { service with manager }.reload io.reload .disableForActivation with
    | (service, .ok ()) => (service, .ok ())
    | (service, .error err) =>
      (({ service with manager := ((rollback packageId).perform gates service.manager
          io.rollbackPersist).1 }.reload io.reloadPrevious .restorePersisted).1,
        .error ("package activation was rolled back: " ++ err)) := by
  simp only [PackageService.activatePackage, perform, check,
    mutate, hid, hactivate, hpersist, Except.map]

/-- What is active after an activation whose reload fails. -/
theorem active_of_failed_reload
    (hr : ({ service with manager }.reload io.reload .disableForActivation).2 ≠ .ok ()) :
    (∃ error, (service.activatePackage io packageId).2 = .error error) ∧
    ∀ key, (service.activatePackage io packageId).1.manager.active key =
      if key = packageId then
        if (service.manager.active packageId).isSome ∧ io.rollbackPersist = .ok () then
          service.manager.active packageId
        else some staged
      else service.manager.active key := by
  have hm : ({ service with manager }.reload io.reload .disableForActivation).1.manager =
      manager := reload_manager
  rw [activatePackage_of_persisted hactivate hid hpersist]
  cases hre : { service with manager }.reload io.reload .disableForActivation with
  | mk reloaded res =>
    rw [hre] at hr hm
    cases res with
    | ok => exact absurd rfl hr
    | error error =>
      refine ⟨⟨_, rfl⟩, fun key => ?_⟩
      simp only [reload_manager]
      simp only at hm
      rw [hm]
      exact active_rollback hid hactivate

end Failure

/-- An activation is atomic exactly when what it selects can be reversed. -/
theorem activatePackage_atomic_iff (gates : PackageGates) (io : ActivationIo)
    (service : PackageService gates) (packageId : String) :
    Atomic io service packageId ↔ Reversible io service packageId := by
  constructor
  · intro hat manager staged hactivate hid hpersist hre
    obtain ⟨⟨err, he⟩, ha⟩ := active_of_failed_reload hactivate hid hpersist hre
    have hs := hat.active err he packageId
    rw [ha, if_pos rfl] at hs
    by_cases hr : (service.manager.active packageId).isSome = true ∧ io.rollbackPersist = .ok ()
    · exact .inl hr
    · rw [if_neg hr] at hs
      exact .inr hs.symm
  · intro hrv
    have ha : ∀ err, (service.activatePackage io packageId).2 = .error err → ∀ key,
        (service.activatePackage io packageId).1.manager.active key =
          service.manager.active key := by
      intro err he key
      rcases perform_activate service.manager packageId io.activatePersist with
        ⟨failure, hp⟩ | ⟨manager, staged, hactivate, hid, hpersist⟩
      · simp only [PackageService.activatePackage, hp]
      · have hre :
            ({ service with manager }.reload io.reload .disableForActivation).2 ≠ .ok () := by
          intro hok
          rw [activatePackage_of_persisted hactivate hid hpersist] at he
          cases hrs : { service with manager }.reload io.reload .disableForActivation with
          | mk reloaded res =>
            rw [hrs] at hok he
            cases hok
            cases he
        rw [(active_of_failed_reload hactivate hid hpersist hre).2]
        split
        case isTrue hk =>
          subst hk
          split
          · rfl
          case isFalse hr =>
            rcases hrv manager staged hactivate hid hpersist hre with h | h
            · exact absurd h hr
            · exact h.symm
        case isFalse => rfl
    refine ⟨ha, fun err he later mode other => ?_⟩
    exact reload_congr (activeBundles_congr (ha err he))

/-- A service that was just started, with the packages of a manager. -/
def PackageService.started (manager : PackageState gates.Scenario) : PackageService gates where
  manager
  agentDefinitions := indexDefinitions AgentDefinition.id builtInAgents
  workflowDefinitions := indexDefinitions WorkflowDefinition.id builtInWorkflows
  routines := .builtIn
  connectors := .memory
  agentOverrides := none
  disabledAgents := []

def quietReload : ReloadIo :=
  { agentDirectory := .ok [], installPersist := fun _ => .ok (), readOverrides := .ok (),
    writeOverrides := .ok () }

def quietActivation : ActivationIo :=
  { activatePersist := .ok (), rollbackPersist := .ok (), reload := quietReload,
    reloadPrevious := quietReload }

/-- A first version is staged, and one of its routines has the identity of a built-in one. -/
def conflictingSteps : List (PackageStep openGates) :=
  [⟨.trustSigner (exampleSigner "alice"), .ok ()⟩,
    ⟨.stage (exampleBundle "kit" "1" "morning-briefing" []), .ok ()⟩]

/-- A first version whose routine conflicts with a built-in one stays active. -/
theorem activatePackage_not_atomic :
    ¬ ∀ (gates : PackageGates) (io : ActivationIo) (service : PackageService gates)
      (packageId : String), Atomic io service packageId := by
  intro h
  obtain ⟨manager, -, hf⟩ : ∃ manager, run packageStep .memory conflictingSteps =
      some manager ∧ (!(PackageService.activatePackage quietActivation (.started manager)
        "kit").2.isOk && (manager.active "kit").isNone &&
      ((PackageService.activatePackage quietActivation (.started manager)
        "kit").1.manager.active "kit").isSome) = true :=
    exists_run_of_any (by decide +kernel)
  simp only [Bool.and_eq_true, Bool.not_eq_true', Option.isNone_iff_eq_none] at hf
  obtain ⟨⟨he, hn⟩, hs⟩ := hf
  cases hr : (PackageService.activatePackage quietActivation (.started manager) "kit").2 with
  | ok =>
    rw [hr] at he
    cases he
  | error error =>
    have hsa := (h openGates quietActivation (.started manager) "kit").active error hr "kit"
    rw [hsa, show (PackageService.started manager).manager = manager from rfl, hn] at hs
    cases hs

end FocalDesk
