import FocalDesk.Connector.Registry
import FocalDesk.Event.Intake
import FocalDesk.Pretty
import FocalDesk.Scenario.Evaluation

/-! The Scenario Lab beside the live intake of connector events. -/
namespace FocalDesk
open Library List Except

variable {codec : ScenarioCodec} {clock : ScenarioClock} {initial : ScenarioInitialState}
  {fixture valid : ScenarioFixture} {registry : ConnectorRegistryState} {fabric : EventFabricState}
  {progress next final : ScenarioProgress} {steps : List ScenarioStep} {step : ScenarioStep}
  {failures : BTreeMap String String} {check : ScenarioCheck} {index : ℕ} {connectorId cid : String}
  {source : EventSource} {payload : Value}

/-- The failures that are injected when the step at an index is evaluated. -/
def failuresAt (steps : List ScenarioStep) (index : ℕ) : BTreeMap String String :=
  (steps.take index).foldl ScenarioStep.inject ∅

/-- The registry has the connectors of a fixture, with their enablement and their schemas, and
every other connector disabled; each is run by the host or built in. -/
structure ConnectorsConfigured (initial : ScenarioInitialState) (registry : ConnectorRegistryState)
    : Prop where
  listed : ∀ (connectorId : String) (policy : ScenarioConnectorPolicy),
    initial.connectors[connectorId]? = some policy →
    ∃ record : ConnectorRecord, registry.records[connectorId]? = some record ∧ record.enabled = policy.enabled ∧
      (record.manifest.builtIn = true ∨ record.manifest.runtime ≠ none) ∧
      record.manifest.eventFields = policy.sources ∧
      ∀ source, source ∈ record.manifest.eventSources ↔ source ∈ policy.sources
  unlisted : ∀ (connectorId : String), initial.connectors[connectorId]? = none →
    ∀ record : ConnectorRecord, registry.records[connectorId]? = some record →
      record.enabled = false

/-- The fabric has the disclosure policies of a fixture enabled, and every other one disabled. -/
structure SourcesConfigured (initial : ScenarioInitialState) (fabric : EventFabricState) :
    Prop where
  connected : fabric.connected = initial.eventFabricConnected
  listed : ∀ (source : EventSource) (fields : List String),
    initial.sourceFields[source]? = some fields →
    ∃ policy : EventSourcePolicy, fabric.policies[source]? = some policy ∧ policy.enabled = true ∧
      policy.allowedFields = fields
  unlisted : ∀ (source : EventSource), initial.sourceFields[source]? = none →
    ∀ policy : EventSourcePolicy, fabric.policies[source]? = some policy → policy.enabled = false

/-- The producer that the service names for the events of a managed connector. -/
def managedProducer (connectorId : String) : String := "managed connector " ++ connectorId

/-! The loop over the steps. -/

theorem evaluateStep_isOk (clock : ScenarioClock) (initial : ScenarioInitialState) (index : ℕ)
    (progress : ScenarioProgress) (hs : step.WellFormed codec) :
    ∃ next, evaluateStep clock initial index progress step = .ok next := by
  cases step with
  | routineEvent ev =>
    have hv : ev.validate = .ok () := hs
    obtain ⟨evaluations, he⟩ : ∃ evaluations, (considerAll ev true (clock.now index)
        (clock.ids index) RoutineRegistry.builtIn.definitions
        (pruneRoutines (clock.now index) progress.routines)).2 = .ok evaluations :=
      considerAll_isOk (fun _ hm => hm) ev true _ _ _
    simp only [evaluateStep, evaluate, hv, he]
    exact ⟨_, rfl⟩
  | voicePhrase text exp => exact ⟨_, rfl⟩
  | connectorEvent cid source payload => exact ⟨_, rfl⟩
  | contextMetadata kind provenance sensitivity fs => exact ⟨_, rfl⟩
  | agentPlan aid ts proposedMutation confirmationPresent ls toks => exact ⟨_, rfl⟩
  | failureInjection comp mode => exact ⟨_, rfl⟩
  | restart comp => exact ⟨_, rfl⟩
  | observedTimeline ttl st provenance => exact ⟨_, rfl⟩

/-- A turn adds checks of its own step, and injects what the step injects. -/
structure Evaluated (initial : ScenarioInitialState) (index : ℕ) (progress next : ScenarioProgress)
    (step : ScenarioStep) (added : List ScenarioCheck) : Prop where
  checks : next.checks = progress.checks ++ added
  own : ∀ check ∈ added, check.stepIndex = index
  failures : next.injectedFailures = step.inject progress.injectedFailures
  connector : ∀ connectorId source payload, step = .connectorEvent connectorId source payload →
    added = connectorChecks initial progress.injectedFailures index connectorId source payload

theorem evaluateStep_spec (h : evaluateStep clock initial index progress step = .ok next) :
    ∃ added, Evaluated initial index progress next step added := by
  cases step with
  | connectorEvent cid source payload =>
    obtain rfl := ok.inj h
    refine ⟨_, rfl, ?_, rfl, ?_⟩
    · simp [connectorChecks]
    · rintro cid source payload ⟨⟩
      rfl
  | voicePhrase text exp =>
    obtain rfl := ok.inj h
    exact ⟨_, rfl, by simp, rfl, by simp⟩
  | contextMetadata kind provenance sensitivity fs =>
    obtain rfl := ok.inj h
    exact ⟨_, rfl, by simp, rfl, by simp⟩
  | routineEvent ev =>
    simp only [evaluateStep] at h
    cases hr : (evaluate RoutineRegistry.builtIn progress.routines ev true
      (clock.now index) (clock.ids index)).2 with
    | error error => simp [hr, Except.map] at h
    | ok evaluations =>
      simp only [hr, Except.map, ok.injEq] at h
      obtain rfl := h
      exact ⟨_, rfl, by simp, rfl, by simp⟩
  | agentPlan aid ts proposedMutation confirmationPresent ls toks =>
    obtain rfl := ok.inj h
    exact ⟨_, rfl, by simp [planChecks], rfl, by simp⟩
  | failureInjection comp mode =>
    obtain rfl := ok.inj h
    exact ⟨_, rfl, by simp, rfl, by simp⟩
  | restart comp =>
    obtain rfl := ok.inj h
    exact ⟨_, rfl, by simp, rfl, by simp⟩
  | observedTimeline ttl st provenance =>
    obtain rfl := ok.inj h
    exact ⟨_, rfl, by simp, rfl, by simp⟩

theorem evaluateSteps_isOk (clock : ScenarioClock) (initial : ScenarioInitialState) (index : ℕ)
    (progress : ScenarioProgress) (h : ∀ step ∈ steps, step.WellFormed codec) :
    ∃ final, evaluateSteps clock initial index steps progress = .ok final := by
  induction steps generalizing index progress with
  | nil => exact ⟨progress, rfl⟩
  | cons step steps ih =>
    obtain ⟨hst, hs⟩ := forall_mem_cons.mp h
    obtain ⟨next, hn⟩ := evaluateStep_isOk clock initial index progress hst
    obtain ⟨final, hf⟩ := ih (index + 1) next hs
    exact ⟨final, by simp only [evaluateSteps, bind_eq_ok]; exact ⟨next, hn, hf⟩⟩

/-- The checks that the loop adds, step by step. -/
theorem evaluateSteps_spec (h : evaluateSteps clock initial index steps progress = .ok final) :
    ∃ added, final.checks = progress.checks ++ added ∧
      (∀ check ∈ added, index ≤ check.stepIndex) ∧
      ∀ n cid source payload, steps[n]? = some (.connectorEvent cid source payload) →
        ∀ check, check ∈ added ∧ check.stepIndex = index + n ↔
          check ∈ connectorChecks initial
            ((steps.take n).foldl ScenarioStep.inject progress.injectedFailures) (index + n)
            cid source payload := by
  induction steps generalizing index progress with
  | nil =>
    obtain rfl := ok.inj h
    exact ⟨[], by simp, by simp, by simp⟩
  | cons step steps ih =>
    simp only [evaluateSteps, bind_eq_ok] at h
    obtain ⟨next, hne, hr⟩ := h
    obtain ⟨own, ho⟩ := evaluateStep_spec hne
    obtain ⟨added, ha, hl, hch⟩ := ih hr
    refine ⟨own ++ added, ?_, ?_, ?_⟩
    · rw [ha, ho.checks, append_assoc]
    · intro check hc
      rcases mem_append.mp hc with hc | hc
      · exact (ho.own check hc).ge
      · have := hl check hc
        omega
    · intro n cid source payload hn check
      cases n with
      | zero =>
        cases hn
        rw [take_zero, foldl_nil, Nat.add_zero, ← ho.connector cid source payload rfl]
        constructor
        · rintro ⟨hc, hi⟩
          rcases mem_append.mp hc with hc | hc
          · exact hc
          · have := hl check hc
            omega
        · intro hc
          exact ⟨mem_append_left _ hc, ho.own check hc⟩
      | succ n =>
        have hi : index + 1 + n = index + (n + 1) := by omega
        have hr := hch n cid source payload hn check
        rw [hi, ho.failures] at hr
        rw [take_succ_cons, foldl_cons, ← hr]
        constructor
        · rintro ⟨hc, hs⟩
          rcases mem_append.mp hc with hc | hc
          · have := ho.own check hc
            omega
          · exact ⟨hc, hs⟩
        · rintro ⟨hc, hs⟩
          exact ⟨mem_append_right _ hc, hs⟩

/-! What the checks ask for. -/

/-- The connector part of the checks. -/
def ConnectorAllows (initial : ScenarioInitialState) (connectorId : String) (source : EventSource)
    (payload : Value) : Prop :=
  ∃ policy : ScenarioConnectorPolicy, initial.connectors[connectorId]? = some policy ∧
    policy.enabled = true ∧ ∃ fields : List String, policy.sources[source]? = some fields ∧
      ∀ field ∈ payloadFields payload, field ∈ fields

/-- The part of the checks that is about disclosure. -/
def SourceAllows (initial : ScenarioInitialState) (source : EventSource) (payload : Value) : Prop :=
  ∃ fields : List String, initial.sourceFields[source]? = some fields ∧
    (∃ field ∈ fields, field ∈ payloadFields payload) ∧ payload.asObject.isSome = true ∧
    ∀ field ∈ fields, (payload.get field).all isScalar = true

theorem checks_pass_iff (initial : ScenarioInitialState) (index : ℕ) (source : EventSource)
    (payload : Value) (hc : "connector" ∉ failures) (how : cid ∉ failures) :
    (∀ check ∈ connectorChecks initial failures index cid source payload,
      check.passed) ↔
      initial.eventFabricConnected ∧ SourceAllows initial source payload ∧
        ConnectorAllows initial cid source payload := by
  simp only [connectorChecks, forall_mem_cons, not_mem_nil, false_implies, implies_true,
    and_true, Option.any_eq_true, Bool.and_eq_true, decide_eq_true_eq, hc, how,
    not_false_eq_true, true_and, any_eq_true, all_eq_true, Option.isSome_iff_exists,
    Option.bind_eq_some_iff, SourceAllows, ConnectorAllows]
  constructor
  · rintro ⟨hco, -, ⟨pol, hp, he⟩, -, ⟨fs, hf, hd⟩,
      ⟨fields', hf', ho, hsc⟩, ⟨schema, ⟨pol', hpo', hs⟩, hw⟩⟩
    obtain rfl := Option.some.inj (hf.symm.trans hf')
    obtain rfl := Option.some.inj (hp.symm.trans hpo')
    exact ⟨hco, ⟨fs, hf, hd, ho, hsc⟩, pol, hp, he, schema, hs, hw⟩
  · rintro ⟨hco, ⟨fs, hf, ⟨fld, hfi, hh⟩, ho, hsc⟩,
      pol, hp, he, schema, hs, hw⟩
    refine ⟨hco, ⟨fs, hf, ?_⟩, ⟨pol, hp, he⟩,
      ⟨schema, pol, hp, hs⟩, ⟨fs, hf, fld, hfi, hh⟩,
      ⟨fs, hf, ho, hsc⟩, schema, ⟨pol, hp, hs⟩, hw⟩
    cases fs with
    | nil => cases hfi
    | cons => rfl

/-! The same questions in the live intake. -/

theorem mem_payloadFields {fld : String} :
    fld ∈ payloadFields payload ↔ ∃ v, payload.get fld = some v := by
  rw [payloadFields, Value.get]
  cases payload.asObject with
  | none => simp
  | some mems =>
    simp only [Option.getD_some, mem_map, bind, Option.bind_some, Option.map_eq_some_iff]
    constructor
    · rintro ⟨mem, hm, rfl⟩
      have hf : (mems.find? fun other => other.1 == mem.1).isSome :=
        find?_isSome.mpr ⟨mem, hm, beq_self_eq_true _⟩
      obtain ⟨other, ho⟩ := Option.isSome_iff_exists.mp hf
      exact ⟨other.2, other, ho, rfl⟩
    · rintro ⟨v, mem, hm, -⟩
      exact ⟨mem, mem_of_find?_eq_some hm,
        by simpa using find?_some hm⟩

theorem authorizeManagedEvent_iff (h : ConnectorsConfigured initial registry)
    (ho : ∃ obj, payload.asObject = some obj) :
    authorizeManagedEvent registry cid source payload = .ok () ↔
      ConnectorAllows initial cid source payload := by
  obtain ⟨obj, ho⟩ := ho
  have hfi : payloadFields payload = obj.map Prod.fst := by
    rw [payloadFields, ho, Option.getD_some]
  have hw : ∀ fs : List String, (¬ ∃ mem ∈ obj, mem.1 ∉ fs) ↔
      ∀ fld ∈ payloadFields payload, fld ∈ fs := by
    intro fs
    simp [hfi]
  simp only [authorizeManagedEvent, enabledRecord, bind_eq_ok, okOr_eq_ok, bailIf_eq_ok,
    pure_eq_ok, ho, ConnectorAllows]
  constructor
  · rintro ⟨r, ⟨found, hf, -, he, -, hsc, rfl⟩, -, hm, listed, hl,
      fs, hs, hk⟩
    cases hl
    cases hp : initial.connectors[cid]? with
    | none => exact absurd (h.unlisted cid hp found hf) he
    | some pol =>
      obtain ⟨r, hre, hsa, -, hsr, -⟩ := h.listed cid pol hp
      obtain rfl := Option.some.inj (hf.symm.trans hre)
      refine ⟨pol, rfl, ?_, fs, hsr ▸ hs, (hw fs).mp hk⟩
      rw [← hsa]
      exact Bool.eq_true_of_not_eq_false he
  · rintro ⟨pol, hp, he, fs, hs, hk⟩
    obtain ⟨r, hre, hsa, hm, hsr, hd⟩ := h.listed cid pol hp
    refine ⟨r, ⟨r, hre, (), ?_, (), ?_, rfl⟩, (), ?_, obj, rfl, fs, hsr ▸ hs, (hw fs).mpr hk⟩
    · rw [hsa, he]
      exact Bool.true_eq_false_eq_False
    · exact not_not.mpr ((hd source).mpr (mem_of_getElem? hs))
    · rintro ⟨hb, hr⟩
      rcases hm with hm | hm
      · rw [hm] at hb
        cases hb
      · exact hm hr

theorem accepted_iff {producer : String} (h : SourcesConfigured initial fabric)
    (hpr : trim producer ≠ "" ∧ charCount producer ≤ 200) (ho : ∃ obj, payload.asObject = some obj)
    (hl : codec.len payload ≤ maxPayloadBytes) :
    Accepted codec.toValueCodec fabric source producer payload ↔
      initial.eventFabricConnected ∧ SourceAllows initial source payload := by
  have hsc : ∀ fld, (payload.get fld).all isScalar ↔
      ∀ v, payload.get fld = some v → isScalar v := by
    intro fld
    cases payload.get fld <;> simp
  constructor
  · intro ha
    obtain ⟨pol, hp, he, hd, hs⟩ := ha.disclosed
    refine ⟨h.connected ▸ ha.connected, ?_⟩
    cases hfi : initial.sourceFields[source]? with
    | none =>
      rw [h.unlisted source hfi pol hp] at he
      cases he
    | some fs =>
      obtain ⟨pol', hpo', -, rfl⟩ := h.listed source fs hfi
      obtain rfl := Option.some.inj (hp.symm.trans hpo')
      obtain ⟨fld, hf, hv⟩ := hd
      exact ⟨_, hfi, ⟨fld, hf, (mem_payloadFields).mpr hv⟩,
        Option.isSome_iff_exists.mpr ho, fun fld hf =>
          (hsc fld).mpr (hs fld hf)⟩
  · rintro ⟨hc, fs, hfi, ⟨fld, hf, hh⟩, -, hs⟩
    obtain ⟨pol, hp, he, rfl⟩ := h.listed source fs hfi
    refine ⟨h.connected.trans hc, hpr, hl, ho, pol, hp, he,
      ⟨fld, hf, (mem_payloadFields).mp hh⟩, ?_⟩
    intro fld hf
    exact (hsc fld).mp (hs fld hf)

theorem managedProducer_bounds (h : isIdentifier 80 cid) :
    trim (managedProducer cid) ≠ "" ∧ charCount (managedProducer cid) ≤ 200 := by
  have hl : (managedProducer cid).toList =
      "managed connector ".toList ++ cid.toList := String.toList_append
  have hle : "managed connector ".toList.length = 18 := by decide
  obtain ⟨cs, hh⟩ : ∃ cs, "managed connector ".toList = 'm' :: cs :=
    ⟨"anaged connector ".toList, by decide⟩
  refine ⟨?_, ?_⟩
  · rw [hh, cons_append] at hl
    exact trim_ne_empty (hl ▸ mem_cons_self) (by decide)
  · have hb : byteLen cid ≤ 80 := by
      simp only [isIdentifier, Bool.and_eq_true, decide_eq_true_eq] at h
      exact h.1.2
    have hc := length_le_byteLen cid
    rw [charCount, hl, length_append, hle]
    omega

/-- At every connector event of a validated fixture without an injected failure, the Scenario Lab
passes its checks exactly when the live intake takes the event. -/
theorem scenario_agrees_with_intake (codec : ScenarioCodec) (clock : ScenarioClock)
    (fixture valid : ScenarioFixture) (registry : ConnectorRegistryState)
    (fabric : EventFabricState) (now : ℕ) (id : String)
    (hvalid : fixture.validate codec = .ok valid)
    (hconnectors : ConnectorsConfigured valid.initial registry)
    (hsources : SourcesConfigured valid.initial fabric) :
    ∃ report, evaluateScenario codec clock fixture = .ok report ∧
      ∀ n connectorId source payload,
        valid.steps[n]? = some (.connectorEvent connectorId source payload) →
        "connector" ∉ failuresAt valid.steps n → connectorId ∉ failuresAt valid.steps n →
        ((∀ check ∈ report.checks, check.stepIndex = n → check.passed = true) ↔
          authorizeManagedEvent registry connectorId source payload = .ok () ∧
            ∃ prepared, prepareEvent codec.toValueCodec fabric source (managedProducer connectorId)
              payload now id = .ok prepared) := by
  have hs := fixture.validate_steps hvalid
  obtain ⟨final, hf⟩ := evaluateSteps_isOk clock valid.initial 0 (.start valid.initial) hs
  refine ⟨scenarioReport valid final, ?_, ?_⟩
  · simp only [evaluateScenario, bind_eq_ok, pure_eq_ok]
    exact ⟨valid, hvalid, final, hf, rfl⟩
  · intro n connectorId source payload hn hc how
    obtain ⟨hid, ho, hl⟩ := hs _ (mem_of_getElem? hn)
    obtain ⟨added, ha, -, hce⟩ := evaluateSteps_spec hf
    have hp := checks_pass_iff valid.initial n source payload hc how
    have ht : (∀ check ∈ (scenarioReport valid final).checks, check.stepIndex = n →
        check.passed = true) ↔ ∀ check ∈ connectorChecks valid.initial (failuresAt valid.steps n) n
          connectorId source payload, check.passed = true := by
      have hm := hce n connectorId source payload hn
      rw [Nat.zero_add] at hm
      have hal : (scenarioReport valid final).checks = added := ha
      rw [hal]
      constructor
      · intro h check hch
        obtain ⟨ha, hi⟩ := (hm check).mpr hch
        exact h check ha hi
      · intro h check hch hi
        exact h check ((hm check).mp ⟨hch, hi⟩)
    rw [ht, hp, prepareEvent_isOk_iff,
      accepted_iff hsources (managedProducer_bounds hid) ho hl,
      authorizeManagedEvent_iff hconnectors ho]
    tauto

/-! A fixture with one event of one connector. -/

/-- The serialized lengths of objects of strings, and of the fixture below. -/
def exampleScenarioCodec : ScenarioCodec where
  len value := match value with
    | .object members => members.length + 1 +
        (members.map fun member => byteLen (quoted member.1) + 1 +
          byteLen (quoted (member.2.asStr.getD ""))).sum
    | _ => 4
  text _ := ""
  len_event := by decide
  fixtureLen _ := 470

def exampleFields : BTreeMap EventSource (List String) :=
  (∅ : BTreeMap EventSource (List String)).insert .calendar ["event", "title"]

def exampleFixture : ScenarioFixture where
  scenarioVersion := 1
  name := "Calendar sync"
  description := ""
  synthetic := true
  initial := { ScenarioInitialState.default with
    sourceFields := exampleFields
    connectors := (∅ : BTreeMap String ScenarioConnectorPolicy).insert "calendar-sync"
      { enabled := true, sources := exampleFields } }
  steps := [.connectorEvent "calendar-sync" .calendar (.object [("title", .string "Standup")])]
  expectedViolationCodes := []

def exampleRegistry : ConnectorRegistryState where
  records := (∅ : BTreeMap String ConnectorRecord).insert "calendar-sync"
    { ConnectorRecord.installed
        { manifestVersion := 1, id := "calendar-sync", name := "Calendar sync", description := "",
          version := "1.0", eventSources := [.calendar], eventFields := exampleFields,
          networkDomains := [], signingKeyHandle := some "connectors/calendar-sync/key",
          runtime := some { executable := "/usr/bin/calendar-sync", args := [],
                            pollIntervalSeconds := 60, memoryMaxMib := 64, cpuQuotaPercent := 10 },
          builtIn := false } none with
      enabled := true }
  sourcePolicies := ∅
  recentNonces := ∅

def exampleFabric : EventFabricState where
  connected := true
  policies := (∅ : BTreeMap EventSource EventSourcePolicy).insert .calendar
    { source := .calendar, enabled := true, allowedFields := ["event", "title"],
      retentionSeconds := 3600, forwardToAttention := true }
  events := ∅

theorem ScenarioFixture.validate_initial (h : fixture.validate codec = .ok valid) :
    valid.initial = { fixture.initial with
      sourceFields := fixture.initial.sourceFields.map fun _ fs => sortDedup fs
      connectors := fixture.initial.connectors.map fun _ pol =>
        { pol with sources := pol.sources.map fun _ fs => sortDedup fs }
      agentTools := fixture.initial.agentTools.map fun _ ts => sortDedup ts } := by
  simp only [ScenarioFixture.validate, normalizeSources, normalizeConnectors, normalizeAgents,
    bind_eq_ok, pure_eq_ok] at h
  obtain ⟨-, -, -, -, -, -, codes, -, -, ⟨-, -, rfl⟩, -, ⟨-, -, rfl⟩, -, ⟨-, -, rfl⟩, steps, -, -,
    -, rfl⟩ := h
  rfl

theorem exampleFields_normal : exampleFields.map (fun _ fs => sortDedup fs) =
    exampleFields := by
  have hs : sortDedup ["event", "title"] = ["event", "title"] := by decide +kernel
  refine Std.ExtTreeMap.ext_getElem? fun source => ?_
  rw [Std.ExtTreeMap.getElem?_map, exampleFields, Std.ExtTreeMap.getElem?_insert]
  split
  · rw [Option.map_some, hs]
  · simp

theorem exampleRegistry_configured (h : exampleFixture.validate exampleScenarioCodec = .ok valid) :
    ConnectorsConfigured valid.initial exampleRegistry := by
  have hc : ∀ cid : String, valid.initial.connectors[cid]? =
      if "calendar-sync" = cid then some ⟨true, exampleFields⟩ else none := by
    intro cid
    rw [exampleFixture.validate_initial h]
    simp only [exampleFixture, Std.ExtTreeMap.getElem?_map, Std.ExtTreeMap.getElem?_insert,
      Std.LawfulEqCmp.compare_eq_iff_eq]
    split
    · rw [Option.map_some, exampleFields_normal]
    · simp
  constructor
  · intro cid pol hp
    rw [hc] at hp
    split at hp
    case isFalse => cases hp
    case isTrue hid =>
      cases hp
      subst hid
      refine ⟨_, Std.ExtTreeMap.getElem?_insert_self, rfl,
        .inr (by simp [ConnectorRecord.installed]), rfl, ?_⟩
      intro source
      rw [exampleFields, Std.ExtTreeMap.mem_insert, Std.LawfulEqCmp.compare_eq_iff_eq]
      simp [ConnectorRecord.installed, eq_comm]
  · intro cid hn r hr
    rw [hc] at hn
    split at hn
    case isTrue => cases hn
    case isFalse hid => simp [exampleRegistry, hid] at hr

theorem exampleFabric_configured (h : exampleFixture.validate exampleScenarioCodec = .ok valid) :
    SourcesConfigured valid.initial exampleFabric := by
  have hf : valid.initial.sourceFields = exampleFields := by
    rw [exampleFixture.validate_initial h]
    exact exampleFields_normal
  constructor
  · rw [exampleFixture.validate_initial h]
    rfl
  · intro source fs hs
    rw [hf, exampleFields, Std.ExtTreeMap.getElem?_insert] at hs
    split at hs
    case isFalse => simp at hs
    case isTrue heq =>
      cases hs
      obtain rfl := Std.LawfulEqCmp.eq_of_compare heq
      exact ⟨_, Std.ExtTreeMap.getElem?_insert_self, rfl, rfl⟩
  · intro source hn pol hp
    rw [hf, exampleFields, Std.ExtTreeMap.getElem?_insert] at hn
    split at hn
    case isTrue => cases hn
    case isFalse hne => simp [exampleFabric, hne] at hp

theorem scenario_agrees_with_intake_sample :
    ∃ valid report, exampleFixture.validate exampleScenarioCodec = .ok valid ∧
      ConnectorsConfigured valid.initial exampleRegistry ∧
      SourcesConfigured valid.initial exampleFabric ∧
      evaluateScenario exampleScenarioCodec ⟨fun _ => 0, fun _ id => id⟩ exampleFixture =
        .ok report := by
  obtain ⟨valid, hv⟩ : ∃ valid, exampleFixture.validate exampleScenarioCodec = .ok valid :=
    exists_of_toBool (by decide +kernel)
  have hc := exampleRegistry_configured hv
  have hs := exampleFabric_configured hv
  obtain ⟨report, hr, -⟩ := scenario_agrees_with_intake exampleScenarioCodec
    ⟨fun _ => 0, fun _ id => id⟩ exampleFixture valid exampleRegistry exampleFabric 0 "event" hv
    hc hs
  exact ⟨valid, report, hv, hc, hs, hr⟩

end FocalDesk
