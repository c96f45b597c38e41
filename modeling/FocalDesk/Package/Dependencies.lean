import FocalDesk.Package.Manager

/-! Dependencies of active packages over runs of the package manager's operations. -/
namespace FocalDesk
open Library PackageState

variable {gates : PackageGates} {state next : PackageState gates.Scenario} {packageId key : String}
  {bundle other : FaiBundle gates.Scenario} {dependency dep : FaiPackageDependency}
  {call : PackageCall gates.Scenario} {persist : Except String Unit}

/-- One operation by itself: its change is taken back when it cannot be persisted. -/
def PackageCall.perform (gates : PackageGates) (state : PackageState gates.Scenario)
    (call : PackageCall gates.Scenario) (persist : Except String Unit) :
    PackageState gates.Scenario × Except String Unit :=
  match call.check gates state, call.mutate state, persist with
  | .ok _, .ok next, .ok _ => (next, .ok ())
  | .error error, _, _ => (state, .error error)
  | _, .error error, _ => (state, .error error)
  | _, _, .error error => (state, .error error)

/-- An operation with the outcome of writing the store. -/
structure PackageStep (gates : PackageGates) where
  call : PackageCall gates.Scenario
  persist : Except String Unit

def packageStep (state : PackageState gates.Scenario) (step : PackageStep gates) :
    Option (PackageState gates.Scenario) :=
  some (step.call.perform gates state step.persist).1

/-- Every active bundle finds its dependencies active, at the versions it names. -/
def DependencyClosed (state : PackageState gates.Scenario) : Prop :=
  ∀ packageId bundle, state.active packageId = some bundle →
    state.validateDependencies bundle = .ok ()

/-- A bundle fits among the active ones in the place of a package: what it needs is active,
and nobody needs another version of the package. -/
structure Fits (state : PackageState gates.Scenario) (packageId : String)
    (bundle : FaiBundle gates.Scenario) : Prop where
  needs : ∀ dependency ∈ bundle.manifest.dependencies,
    if dependency.packageId = packageId then bundle.manifest.version = dependency.version
    else state.validateDependency dependency = .ok ()
  needed : ∀ key other, key ≠ packageId → state.active key = some other →
    ∀ dependency ∈ other.manifest.dependencies, dependency.packageId = packageId →
      bundle.manifest.version = dependency.version

/-- The bundle that an operation makes active, and its package. -/
def PackageCall.selects (state : PackageState gates.Scenario) :
    PackageCall gates.Scenario → Option (String × FaiBundle gates.Scenario)
  | .activate packageId => do
    let record ← state.packages[packageId]?
    let staged ← record.staged
    return (packageId, staged)
  | .rollback packageId => do
    let record ← state.packages[packageId]?
    let previous ← record.rollback
    return (packageId, previous)
  | .trustSigner _ | .stage _ => none

/-- An operation that takes effect selects a bundle that fits. -/
def SelectsFitting (state : PackageState gates.Scenario) (step : PackageStep gates) : Prop :=
  step.call.check gates state = .ok () → step.persist = .ok () →
    ∀ selected ∈ step.call.selects state, Fits state selected.1 selected.2

instance : Decidable (Fits state packageId bundle) :=
  decidable_of_iff
    ((∀ dependency ∈ bundle.manifest.dependencies,
        if dependency.packageId = packageId then bundle.manifest.version = dependency.version
        else state.validateDependency dependency = .ok ()) ∧
      ∀ entry ∈ state.packages.toList, entry.1 ≠ packageId → ∀ other ∈ entry.2.active,
        ∀ dependency ∈ other.manifest.dependencies, dependency.packageId = packageId →
          bundle.manifest.version = dependency.version) <| by
    constructor
    · rintro ⟨hneeds, hneeded⟩
      refine ⟨hneeds, fun key other hkey hother => ?_⟩
      obtain ⟨record, hrecord, hactive⟩ := Option.bind_eq_some_iff.mp hother
      exact hneeded (key, record) (Std.ExtTreeMap.mem_toList_iff_getElem?_eq_some.mpr hrecord) hkey
        other hactive
    · rintro ⟨hneeds, hneeded⟩
      refine ⟨hneeds, fun entry hentry hkey other hactive => hneeded entry.1 other hkey ?_⟩
      exact Option.bind_eq_some_iff.mpr
        ⟨entry.2, Std.ExtTreeMap.mem_toList_iff_getElem?_eq_some.mp hentry, hactive⟩

instance (state : PackageState gates.Scenario) (step : PackageStep gates) :
    Decidable (SelectsFitting state step) :=
  inferInstanceAs (Decidable (_ → _ → ∀ selected ∈ step.call.selects state,
    Fits state selected.1 selected.2))

/-! What an operation does to the active bundles. -/

theorem validateDependency_eq_ok : state.validateDependency dep = .ok () ↔
    ∃ installed, state.active dep.packageId = some installed ∧
      installed.manifest.version = dep.version := by
  simp only [validateDependency, bind_eq_ok, okOr_eq_ok, bailIf_eq_ok, not_not, ne_eq]

theorem perform_cases (call : PackageCall gates.Scenario) (state : PackageState gates.Scenario)
    (persist : Except String Unit) : (call.perform gates state persist).1 = state ∨
    (call.check gates state = .ok () ∧ persist = .ok () ∧
      call.mutate state = .ok (call.perform gates state persist).1) := by
  unfold PackageCall.perform
  split
  case h_1 hc hm => exact .inr ⟨hc, rfl, hm⟩
  all_goals exact .inl rfl

theorem active_insert {r : PackageRecord gates.Scenario} :
    ({ state with packages := state.packages.insert packageId r }).active key =
      if key = packageId then r.active else state.active key := by
  simp only [active, Std.ExtTreeMap.getElem?_insert, Std.LawfulEqCmp.compare_eq_iff_eq]
  by_cases h : key = packageId
  · subst h
    simp
  · rw [if_neg h, if_neg fun heq => h heq.symm]

/-- Only the selected package changes its active bundle. -/
theorem active_mutate (h : call.mutate state = .ok next) :
    next.active key = (match call.selects state with
      | some (packageId, bundle) => if key = packageId then some bundle else state.active key
      | none => state.active key) := by
  cases call with
  | trustSigner signer =>
    cases h
    rfl
  | stage bundle =>
    simp only [PackageCall.mutate, stage, bind_eq_ok, pure_eq_ok] at h
    obtain ⟨-, -, rfl⟩ := h
    rw [active_insert]
    simp only [PackageCall.selects]
    split
    case isTrue heq =>
      subst heq
      cases hr : state.packages[bundle.manifest.id]? <;> simp [active, hr]
    case isFalse => rfl
  | activate packageId =>
    simp only [PackageCall.mutate, activate, Except.map] at h
    cases hr : state.packages[packageId]? with
    | none => simp [hr, okOr, bind, Except.bind] at h
    | some r =>
      cases hs : r.staged with
      | none => simp [hr, hs, okOr, bind, Except.bind] at h
      | some staged =>
        simp [hr, hs, okOr, bind, Except.bind, pure, Except.pure] at h
        subst h
        rw [active_insert]
        simp [PackageCall.selects, hr, hs]
  | rollback packageId =>
    simp only [PackageCall.mutate, rollback, Except.map] at h
    cases hr : state.packages[packageId]? with
    | none => simp [hr, okOr, bind, Except.bind] at h
    | some r =>
      cases hp : r.rollback with
      | none => simp [hr, hp, okOr, bind, Except.bind] at h
      | some prev =>
        simp [hr, hp, okOr, bind, Except.bind, pure, Except.pure] at h
        subst h
        rw [active_insert]
        simp [PackageCall.selects, hr, hp]

theorem dependencyClosed_congr (h : ∀ key, next.active key = state.active key) :
    DependencyClosed next ↔ DependencyClosed state := by
  have hd : ∀ dep : FaiPackageDependency,
      next.validateDependency dep = state.validateDependency dep := by
    intro dep
    simp only [validateDependency, h]
  simp only [DependencyClosed, validateDependencies, checkAll_eq_ok, h, hd]

/-- A closed state stays closed exactly when the bundle that becomes active fits. -/
theorem dependencyClosed_select_iff (hc : DependencyClosed state)
    (h : ∀ key, next.active key = if key = packageId then some bundle else state.active key) :
    DependencyClosed next ↔ Fits state packageId bundle := by
  have hd : ∀ dep : FaiPackageDependency,
      next.validateDependency dep = .ok () ↔
        if dep.packageId = packageId then bundle.manifest.version = dep.version
        else state.validateDependency dep = .ok () := by
    intro dep
    rw [validateDependency_eq_ok, validateDependency_eq_ok, h]
    split
    · simp
    · rfl
  simp only [DependencyClosed, validateDependencies, checkAll_eq_ok, hd]
  constructor
  · intro hn
    refine ⟨hn packageId bundle (by rw [h, if_pos rfl]), ?_⟩
    intro key other hk ho dep hm heq
    have hde := hn key other (by rw [h, if_neg hk, ho]) dep hm
    rwa [if_pos heq] at hde
  · intro hf key other ho dep hm
    rw [h] at ho
    by_cases hk : key = packageId
    · rw [if_pos hk] at ho
      cases ho
      exact hf.needs dep hm
    · rw [if_neg hk] at ho
      split
      case isTrue heq => exact hf.needed key other hk ho dep hm heq
      case isFalse =>
        have hv := hc key other ho
        exact checkAll_eq_ok.mp hv dep hm

/-! Runs. -/

theorem dependencyClosed_memory :
    DependencyClosed (memory : PackageState gates.Scenario) := by
  intro packageId bundle h
  simp [active, memory] at h

theorem dependencyClosed_step {step : PackageStep gates} (h : packageStep state step = some next)
    (hok : SelectsFitting state step) (hc : DependencyClosed state) :
    DependencyClosed next := by
  cases h
  rcases perform_cases step.call state step.persist with
    hsa | ⟨hch, hp, hm⟩
  · rwa [hsa]
  · cases hs : step.call.selects state with
    | none =>
      refine (dependencyClosed_congr fun key => ?_).mpr hc
      rw [active_mutate hm, hs]
    | some sel =>
      obtain ⟨packageId, bundle⟩ := sel
      refine (dependencyClosed_select_iff hc fun key => ?_).mpr (hok hch hp (packageId, bundle) hs)
      rw [active_mutate hm, hs]

/-- Packages whose every selection fits stay closed under dependencies. -/
theorem dependencies_closed (gates : PackageGates) (steps : List (PackageStep gates))
    (final : PackageState gates.Scenario) (hfits : Meets packageStep SelectsFitting .memory steps)
    (hrun : run packageStep .memory steps = some final) : DependencyClosed final :=
  run_invariant_of_meets dependencyClosed_step hfits hrun dependencyClosed_memory

/-- Gates that everything passes. -/
def openGates : PackageGates where
  urls := exampleUrls
  Scenario := Unit
  scenarioName _ := "smoke"
  validateScenario _ := .ok ()
  scenarioPassed _ := true
  signatureValid _ := true
  digestHex _ := ""
  bundleLen _ := 0

def exampleRoutine (id : String) : RoutineDefinition :=
  { id, name := "Routine", description := "A routine.", eventKind := .context,
    matchContains := "morning", suggestionTitle := "Begin?", suggestionBody := "It is morning.",
    priority := .normal, promotion := .workflow "morning-briefing", cooldownSeconds := 600,
    maxSuggestionsPerHour := 1, quietHours := none }

/-- A bundle with one routine. -/
def exampleBundle (id version routineId : String) (dependencies : List FaiPackageDependency) :
    FaiBundle Unit where
  manifest :=
    { packageVersion := 1, id, name := "Package", version, description := "A package.",
      dependencies, signer := exampleSigner "alice" }
  payload := { agents := [], workflows := [], routines := [exampleRoutine routineId],
               connectors := [] }
  scenarios := [()]
  signatureHex := String.ofList (List.replicate 128 '0')

/-- A package and another one that needs it. -/
def installedSteps : List (PackageStep openGates) :=
  [⟨.trustSigner (exampleSigner "alice"), .ok ()⟩,
    ⟨.stage (exampleBundle "base" "1" "base-routine" []), .ok ()⟩, ⟨.activate "base", .ok ()⟩,
    ⟨.stage (exampleBundle "extra" "1" "extra-routine" [⟨"base", "1"⟩]), .ok ()⟩,
    ⟨.activate "extra", .ok ()⟩]

theorem dependencies_closed_sample :
    Meets packageStep SelectsFitting .memory installedSteps ∧
      ∃ final, run packageStep .memory installedSteps = some final ∧
        (final.active "extra").isSome = true ∧ DependencyClosed final := by
  obtain ⟨hf, final, hr, ha⟩ :
      Meets packageStep SelectsFitting .memory installedSteps ∧
        ∃ final, run packageStep .memory installedSteps = some final ∧
          (final.active "extra").isSome = true :=
    exists_run_of_checked (by decide +kernel)
  exact ⟨hf, final, hr, ha, dependencies_closed openGates installedSteps final hf hr⟩

/-- The package that another one needs is updated. -/
def updatedSteps : List (PackageStep openGates) :=
  installedSteps ++
    [⟨.stage (exampleBundle "base" "2" "base-routine" []), .ok ()⟩, ⟨.activate "base", .ok ()⟩]

/-- An update leaves an active bundle without the version that it names. -/
theorem dependencies_not_closed :
    ¬ ∀ (gates : PackageGates) (steps : List (PackageStep gates))
      (final : PackageState gates.Scenario),
      run packageStep .memory steps = some final → DependencyClosed final := by
  intro h
  obtain ⟨final, hr, hb⟩ : ∃ final, run packageStep .memory updatedSteps = some final ∧
      (final.active "extra").any (fun bundle => !(final.validateDependencies bundle).isOk) = true :=
    exists_run_of_any (by decide +kernel)
  cases ha : final.active "extra" with
  | none =>
    rw [ha] at hb
    cases hb
  | some bundle =>
    rw [ha, Option.any_some, h openGates updatedSteps final hr "extra" bundle ha]
      at hb
    cases hb

end FocalDesk
