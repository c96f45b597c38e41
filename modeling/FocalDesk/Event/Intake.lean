import FocalDesk.Event.Fabric
import Mathlib.Data.List.TakeWhile

/-! Event intake: what an error leaves in the journal and what an accepted event discloses. -/
namespace FocalDesk
open Library List

variable {codec : ValueCodec} {registry : RoutineRegistry} {fabric : EventFabric}
  {state : EventFabricState} {routines : RoutineState} {source : EventSource}
  {producer id field : String} {payload value : Value} {now : ℕ} {ids : String → String}
  {policy : EventSourcePolicy} {fs : List String} {disclosed : List (String × Value)}
  {event : EventEnvelope} {forward : Bool}

/-- The payload of a retained event discloses what the policy of its source allows. -/
structure DisclosesAllowed (codec : ValueCodec) (policy : EventSourcePolicy) (payload : Value)
    (event : EventEnvelope) (disclosed : List (String × Value)) : Prop where
  object : event.payload = .object disclosed
  exact : ∀ field value, (field, value) ∈ disclosed ↔
    field ∈ policy.allowedFields ∧ payload.get field = some value
  scalar : ∀ field value, (field, value) ∈ disclosed → isScalar value = true
  summary : event.summary = eventSummary codec disclosed

/-- What one call of the intake owes its caller. -/
structure AllOrNothing (codec : ValueCodec) (registry : RoutineRegistry) (state : IntakeState)
    (source : EventSource) (producer : String) (payload : Value) (now : ℕ) (id : String)
    (ids : String → String) : Prop where
  nothing : ∀ error,
    (ingestEvent codec registry state source producer payload now id ids).2 = .error error →
      journal now (ingestEvent codec registry state source producer payload now id ids).1.fabric =
        journal now state.fabric
  all : ∀ delivery,
    (ingestEvent codec registry state source producer payload now id ids).2 = .ok delivery →
      (ingestEvent codec registry state source producer payload now id ids).1.fabric.events[
          delivery.event.id]? = some delivery.event ∧
      (∃ policy disclosed, state.fabric.policies[source]? = some policy ∧
        DisclosesAllowed codec policy payload delivery.event disclosed) ∧
      delivery.event.routineEvent.validate = .ok ()

/-- The fabric takes an event: no check of its own stops it. -/
structure Accepted (codec : ValueCodec) (state : EventFabricState) (source : EventSource)
    (producer : String) (payload : Value) : Prop where
  connected : state.connected = true
  producer : trim producer ≠ "" ∧ charCount producer ≤ 200
  size : codec.len payload ≤ maxPayloadBytes
  object : ∃ object, payload.asObject = some object
  disclosed : ∃ policy, state.policies[source]? = some policy ∧ policy.enabled = true ∧
    (∃ field ∈ policy.allowedFields, ∃ value, payload.get field = some value) ∧
    ∀ field ∈ policy.allowedFields, ∀ value, payload.get field = some value → isScalar value = true

/-! Disclosure. -/

theorem disclose_spec (h : disclose payload fs = .ok disclosed) :
    (∀ field value, (field, value) ∈ disclosed ↔ field ∈ fs ∧ payload.get field = some value) ∧
    ∀ field value, (field, value) ∈ disclosed → isScalar value := by
  induction fs generalizing disclosed with
  | nil =>
    cases h
    simp
  | cons fst fs ih =>
    simp only [disclose] at h
    split at h
    case h_1 hn =>
      obtain ⟨he, hs⟩ := ih h
      refine ⟨fun field value => ?_, hs⟩
      rw [he]
      constructor
      · rintro ⟨hm, hg⟩
        exact ⟨mem_cons_of_mem _ hm, hg⟩
      · rintro ⟨hm, hg⟩
        rcases mem_cons.mp hm with rfl | hm
        · rw [hn] at hg
          cases hg
        · exact ⟨hm, hg⟩
    case h_2 found hfo =>
      simp only [bind_eq_ok, bailIf_eq_ok, Bool.not_eq_false, pure_eq_ok] at h
      obtain ⟨-, hf, rest, hr, rfl⟩ := h
      obtain ⟨he, hs⟩ := ih hr
      constructor
      · intro field value
        rw [mem_cons, he, mem_cons]
        constructor
        · rintro (heq | ⟨hm, hg⟩)
          · cases heq
            exact ⟨.inl rfl, hfo⟩
          · exact ⟨.inr hm, hg⟩
        · rintro ⟨rfl | hm, hg⟩
          · rw [hfo] at hg
            cases hg
            exact .inl rfl
          · exact .inr ⟨hm, hg⟩
      · intro field value hm
        rcases mem_cons.mp hm with heq | hm
        · cases heq
          exact hf
        · exact hs field value hm

theorem disclose_isOk (h : ∀ field ∈ fs, ∀ value, payload.get field = some value → isScalar value) :
    ∃ disclosed, disclose payload fs = .ok disclosed := by
  induction fs with
  | nil => exact ⟨[], rfl⟩
  | cons fst fs ih =>
    obtain ⟨rest, hr⟩ := ih fun field hm => h field (mem_cons_of_mem _ hm)
    cases hg : payload.get fst with
    | none => exact ⟨rest, by simp [disclose, hg, hr]⟩
    | some value =>
      have hs : isScalar value := h fst mem_cons_self value hg
      refine ⟨(fst, value) :: rest, ?_⟩
      simp [disclose, hg, hr, hs, bailIf, bind, Except.bind, pure, Except.pure]

theorem prepareEvent_eq_ok :
    prepareEvent codec state source producer payload now id = .ok (event, forward) ↔
      state.connected ∧ trim producer ≠ "" ∧ charCount producer ≤ 200 ∧
      codec.len payload ≤ maxPayloadBytes ∧
      ∃ policy, state.policies[source]? = some policy ∧ policy.enabled ∧
      (∃ obj, payload.asObject = some obj) ∧
      ∃ disclosed, disclose payload policy.allowedFields = .ok disclosed ∧ disclosed ≠ [] ∧
      event = { id, source, producer, payload := .object disclosed,
                summary := eventSummary codec disclosed, createdAtUnix := now,
                expiresAtUnix := now + policy.retentionSeconds } ∧
      forward = policy.forwardToAttention := by
  simp only [prepareEvent, bind_eq_ok, bailIf_eq_ok, okOr_eq_ok, pure_eq_ok, Bool.not_eq_false,
    not_or, not_lt, Prod.mk.injEq]
  constructor
  · rintro ⟨-, hc, -, ⟨hb, hp⟩, -, hl, policy, hpo, -, he, obj,
      ho, disclosed, hd, -, hne, rfl, rfl⟩
    exact ⟨hc, hb, hp, hl, policy, hpo, he, ⟨obj, ho⟩, disclosed, hd, by simpa using hne, rfl, rfl⟩
  · rintro ⟨hc, hb, hp, hl, policy, hpo, he, ⟨obj, ho⟩,
      disclosed, hd, hne, rfl, rfl⟩
    exact ⟨(), hc, (), ⟨hb, hp⟩, (), hl, policy, hpo, (), he, obj,
      ho, disclosed, hd, (), by simpa using hne, rfl, rfl⟩

theorem prepareEvent_isOk_iff :
    (∃ prep, prepareEvent codec state source producer payload now id = .ok prep) ↔
      Accepted codec state source producer payload := by
  constructor
  · rintro ⟨⟨event, forward⟩, hpr⟩
    obtain ⟨hc, hb, hp, hl, policy, hpo, he, ho, disclosed,
      hd, hne, -, -⟩ := (prepareEvent_eq_ok).mp hpr
    obtain ⟨hex, hs⟩ := disclose_spec hd
    refine ⟨hc, ⟨hb, hp⟩, hl, ho, policy, hpo, he, ?_, ?_⟩
    · obtain ⟨⟨field, value⟩, hm⟩ := exists_mem_of_ne_nil disclosed hne
      obtain ⟨hf, hg⟩ := (hex field value).mp hm
      exact ⟨field, hf, value, hg⟩
    · intro field hf value hg
      exact hs field value ((hex field value).mpr ⟨hf, hg⟩)
  · rintro ⟨hc, ⟨hb, hp⟩, hl, ho, policy, hpo, he,
      ⟨field, hf, value, hg⟩, hs⟩
    obtain ⟨disclosed, hd⟩ := disclose_isOk hs
    have hne : disclosed ≠ [] := ne_nil_of_mem (((disclose_spec hd).1 field value).mpr ⟨hf, hg⟩)
    exact ⟨(_, _), (prepareEvent_eq_ok).mpr ⟨hc, hb, hp, hl, policy, hpo,
      he, ho, disclosed, hd, hne, rfl, rfl⟩⟩

/-- An expired event has no say in what the fabric takes. -/
theorem prepareEvent_prune_isOk_iff :
    (∃ prep, prepareEvent codec (pruneEvents now state) source producer payload now id =
      .ok prep) ↔ Accepted codec state source producer payload := by
  rw [prepareEvent_isOk_iff]
  exact ⟨fun h => ⟨h.1, h.2, h.3, h.4, h.5⟩, fun h => ⟨h.1, h.2, h.3, h.4, h.5⟩⟩

/-! A summary is never blank. -/

/-- The fields of every source begin with a letter. -/
theorem supportedEventFields_head : ∀ source : EventSource,
    ∀ field ∈ supportedEventFields source, (field.toList.head?.any fun c => !isWhitespace c) := by
  intro source
  cases source <;> decide

theorem exists_head_of_supported (h : field ∈ supportedEventFields source) :
    ∃ c cs, field.toList = c :: cs ∧ isWhitespace c = false := by
  have hh := supportedEventFields_head source field h
  cases hl : field.toList with
  | nil =>
    rw [hl] at hh
    cases hh
  | cons c cs =>
    rw [hl] at hh
    exact ⟨c, cs, rfl, by simpa using hh⟩

theorem eventSummary_head {rest : List (String × Value)} {c : Char} {cs : List Char}
    (hf : field.toList = c :: cs) :
    ∃ tail, (eventSummary codec ((field, value) :: rest)).toList = c :: tail := by
  have hs : ∃ tail, (summaryText codec ((field, value) :: rest)).toList = c :: tail := by
    cases rest with
    | nil => simp [summaryText, String.intercalate_singleton, hf]
    | cons => simp [summaryText, String.intercalate_cons_cons, hf]
  obtain ⟨tail, ht⟩ := hs
  exact ⟨tail.take 1999, by simp [eventSummary, ht]⟩

theorem charCount_eventSummary_le : charCount (eventSummary codec disclosed) ≤ 2000 := by
  simp only [charCount, eventSummary, String.toList_ofList, length_take]
  omega

theorem asStr_head (source : EventSource) :
    ∃ c cs, source.asStr.toList = c :: cs ∧ isWhitespace c = false := by
  cases source <;> exact ⟨_, _, rfl, by decide⟩

/-- A prepared event passes the routine engine exactly when its label is short enough. -/
theorem routineEvent_validate_iff (hv : policy.validate = .ok policy)
    (hp : state.policies[source]? = some policy)
    (h : prepareEvent codec state source producer payload now id = .ok (event, forward)) :
    event.routineEvent.validate = .ok () ↔ charCount (eventLabel source producer) ≤ 200 := by
  obtain ⟨-, -, -, -, pol', hp', -, -, disclosed, hd, hne, rfl, -⟩ := (prepareEvent_eq_ok).mp h
  obtain rfl : policy = pol' := Option.some.inj (hp.symm.trans hp')
  obtain ⟨he, -⟩ := disclose_spec hd
  obtain ⟨-, -, hsu, -, hs⟩ := EventSourcePolicy.validate_eq_ok.mp hv
  have hf : sortDedup policy.allowedFields = policy.allowedFields :=
    (congrArg EventSourcePolicy.allowedFields hs).symm
  have hva : trim (eventSummary codec disclosed) ≠ "" := by
    cases disclosed with
    | nil => exact absurd rfl hne
    | cons mem rest =>
      have hm : mem.1 ∈ supportedEventFields policy.source := by
        apply hsu
        rw [hf]
        exact ((he mem.1 mem.2).mp (by simp)).1
      obtain ⟨c, cs, hh, hc⟩ := exists_head_of_supported hm
      obtain ⟨tail, ht⟩ : ∃ tail, (eventSummary codec (mem :: rest)).toList = c :: tail :=
        eventSummary_head hh
      exact trim_ne_empty (ht ▸ mem_cons_self) hc
  have hl : trim (eventLabel source producer) ≠ "" := by
    obtain ⟨c, cs, hh, hc⟩ := asStr_head source
    have hli : (eventLabel source producer).toList =
        c :: (cs ++ (" via " : String).toList ++ producer.toList) := by
      simp [eventLabel, hh, String.toList_append]
    exact trim_ne_empty (hli ▸ mem_cons_self) hc
  have hle : ¬ 2000 < charCount (eventSummary codec disclosed) :=
    not_lt.mpr charCount_eventSummary_le
  rw [RoutineEvent.validate_eq_ok]
  exact ⟨fun h => h.2.2.2, fun h => ⟨hva, not_lt.mp hle, hl, h⟩⟩

/-! Intake. -/

theorem journal_prune (now : ℕ) (state : EventFabricState) :
    journal now (pruneEvents now state) = journal now state := by
  apply Std.ExtTreeMap.ext_getElem?
  intro k
  simp [journal, pruneEvents, Option.filter_filter]

/-- With valid definitions only the check of the event itself stops a dispatch. -/
theorem evaluate_isOk_iff {routineEvent : RoutineEvent} {simulated : Bool} :
    (∃ evaluations, (evaluate registry routines routineEvent simulated now ids).2 =
      .ok evaluations) ↔ routineEvent.validate = .ok () := by
  cases hv : routineEvent.validate with
  | error error => simp [evaluate, hv]
  | ok =>
    simp only [evaluate, hv, iff_true]
    exact considerAll_isOk (fun _ h => h) routineEvent simulated now ids _

/-- What one call does with an event that was prepared. -/
theorem ingest_of_prepared
    (h : prepareEvent codec (pruneEvents now state) source producer payload now id =
      .ok (event, forward)) :
    ingest codec state source producer payload now id =
      ({ pruneEvents now state with
          events := (evictEvents (pruneEvents now state).events.size
            (pruneEvents now state).events).insert event.id event }, .ok (event, forward)) := by
  simp only [ingest, h]

/-- An event that is refused leaves no trace. -/
theorem allOrNothing_of_refused
    (h : ∀ prep,
      prepareEvent codec (pruneEvents now state) source producer payload now id ≠ .ok prep) :
    AllOrNothing codec registry ⟨state, routines⟩ source producer payload now id ids := by
  cases hp : prepareEvent codec (pruneEvents now state) source producer payload now id with
  | ok prep => exact absurd hp (h prep)
  | error refusal =>
    have hi : ingestEvent codec registry ⟨state, routines⟩ source producer payload now id
        ids = (⟨pruneEvents now state, routines⟩, .error refusal) := by
      simp only [ingestEvent, ingest, hp]
    constructor
    · intro error _
      rw [hi]
      exact journal_prune now state
    · intro dlv hok
      rw [hi] at hok
      cases hok

/-- An event with a short label is retained as its policy allows, or refused without a trace. -/
theorem allOrNothing_of_label (hl : charCount (eventLabel source producer) ≤ 200) :
    AllOrNothing codec registry ⟨fabric.state, routines⟩ source producer payload now id ids := by
  cases hp : prepareEvent codec (pruneEvents now fabric.state) source producer payload now id with
  | error refusal => exact allOrNothing_of_refused fun prep hok => by simp [hp] at hok
  | ok prep =>
    obtain ⟨event, forward⟩ := prep
    obtain ⟨-, -, -, -, policy, hpo, -, -, disclosed, hds, -, hev, -⟩ := (prepareEvent_eq_ok).mp hp
    obtain ⟨-, hv⟩ := fabric.valid source policy hpo
    have hr : event.routineEvent.validate = .ok () := (routineEvent_validate_iff hv hpo hp).mpr hl
    obtain ⟨hex, hs⟩ := disclose_spec hds
    have hd : DisclosesAllowed codec policy payload event disclosed := by
      subst hev
      exact ⟨rfl, hex, hs, rfl⟩
    have hdi : ∃ evaluations,
        (evaluate registry routines event.routineEvent false now ids).2 = .ok evaluations :=
      (evaluate_isOk_iff).mpr hr
    obtain ⟨evaluations, he⟩ := hdi
    have hre : ∃ routines' evaluations', ingestEvent codec registry ⟨fabric.state, routines⟩
        source producer payload now id ids =
          (⟨(ingest codec fabric.state source producer payload now id).1, routines'⟩,
            .ok ⟨event, evaluations', false⟩) := by
      cases forward with
      | false => exact ⟨routines, [], by simp [ingestEvent, ingest_of_prepared hp]⟩
      | true =>
        refine ⟨(evaluate registry routines event.routineEvent false now ids).1, evaluations, ?_⟩
        simp [ingestEvent, ingest_of_prepared hp, he, Except.map]
    obtain ⟨routines', evaluations', hre⟩ := hre
    constructor
    · intro error her
      rw [hre] at her
      cases her
    · intro dlv hok
      rw [hre] at hok ⊢
      cases hok
      refine ⟨?_, ⟨policy, disclosed, hpo, hd⟩, hr⟩
      rw [ingest_of_prepared hp]
      simp

/-- An event with a long label that the fabric accepts is kept, whatever its caller is told. -/
theorem not_allOrNothing_of_prepared
    (hp : prepareEvent codec (pruneEvents now fabric.state) source producer payload now id =
      .ok (event, forward)) (hf : id ∉ fabric.state.events)
    (hl : 200 < charCount (eventLabel source producer)) :
    ¬ AllOrNothing codec registry ⟨fabric.state, routines⟩ source producer payload now id ids := by
  intro h
  obtain ⟨-, -, -, -, policy, hpo, -, -, disclosed, -, -, he, -⟩ := (prepareEvent_eq_ok).mp hp
  obtain ⟨-, hva⟩ := fabric.valid source policy hpo
  have hr : ¬ event.routineEvent.validate = .ok () := fun hok =>
    absurd ((routineEvent_validate_iff hva hpo hp).mp hok) (Nat.not_le_of_lt hl)
  cases forward with
  | false =>
    have hre : (ingestEvent codec registry ⟨fabric.state, routines⟩ source producer payload
        now id ids).2 = .ok ⟨event, [], false⟩ := by
      simp [ingestEvent, ingest_of_prepared hp]
    exact hr (h.all _ hre).2.2
  | true =>
    cases hv : event.routineEvent.validate with
    | ok => exact hr hv
    | error error =>
      have hre : ingestEvent codec registry ⟨fabric.state, routines⟩ source producer payload
          now id ids = (⟨(ingest codec fabric.state source producer payload now id).1, routines⟩,
            .error error) := by
        simp [ingestEvent, ingest_of_prepared hp, evaluate, hv, Except.map]
      have hs := h.nothing error (congrArg Prod.snd hre)
      rw [hre, ingest_of_prepared hp] at hs
      have hid : event.id = id := by rw [he]
      have hli : now < event.expiresAtUnix := by
        have := (EventSourcePolicy.validate_eq_ok.mp hva).1.1
        rw [he]
        simp only
        omega
      -- The journal holds the event now and did not hold it before.
      have hk := congrArg (fun evs => evs[id]?) hs
      have ha : fabric.state.events[id]? = none := by
        simpa using (Std.ExtTreeMap.mem_iff_isSome_getElem?.not.mp hf)
      simp [journal, pruneEvents, hid, ha] at hk
      omega

/-- A fabric whose one enabled source discloses its event field. -/
def disclosingFabric (source : EventSource) : EventFabric where
  state :=
    { connected := true
      policies := (∅ : BTreeMap EventSource EventSourcePolicy).insert source
        { source, enabled := true, allowedFields := ["event"], retentionSeconds := 300,
          forwardToAttention := true }
      events := ∅ }
  valid other policy h := by
    rw [Std.ExtTreeMap.getElem?_insert] at h
    split at h
    case isTrue heq =>
      cases h
      refine ⟨Std.LawfulEqCmp.eq_of_compare heq, ?_⟩
      cases source <;> decide
    case isFalse => simp at h

/-- An intake is all or nothing exactly when the fabric refuses the event or its label fits
into a routine event. -/
theorem intake_allOrNothing_iff (codec : ValueCodec) (registry : RoutineRegistry)
    (fabric : EventFabric) (routines : RoutineState) (source : EventSource) (producer : String)
    (payload : Value) (now : ℕ) (id : String) (ids : String → String)
    (hfresh : id ∉ fabric.state.events) :
    AllOrNothing codec registry ⟨fabric.state, routines⟩ source producer payload now id ids ↔
      ¬ Accepted codec fabric.state source producer payload ∨
        charCount (eventLabel source producer) ≤ 200 := by
  constructor
  · intro h
    by_contra hn
    simp only [not_or, not_not, not_le] at hn
    obtain ⟨ht, hl⟩ := hn
    obtain ⟨⟨event, forward⟩, hp⟩ := (prepareEvent_prune_isOk_iff).mpr ht
    exact not_allOrNothing_of_prepared hp hfresh hl h
  · rintro (hr | hl)
    · apply allOrNothing_of_refused
      intro prep hp
      exact hr ((prepareEvent_prune_isOk_iff).mp ⟨prep, hp⟩)
    · exact allOrNothing_of_label hl

/-- A serializer of the values that the examples need. -/
def plainCodec : ValueCodec := ⟨fun _ => 13, fun _ => "", by decide⟩

/-- A fabric that takes the events of a service. -/
def serviceFabric : EventFabric := disclosingFabric .serviceHealth

/-- A producer that fits into the fabric and not into a routine event. -/
def longProducer : String := String.ofList (List.replicate 190 'p')

theorem charCount_replicate (n : ℕ) (c : Char) :
    charCount (String.ofList (List.replicate n c)) = n := by
  rw [charCount, String.toList_ofList, length_replicate]

theorem trim_replicate (n : ℕ) {c : Char} (hc : isWhitespace c = false) :
    trim (String.ofList (List.replicate (n + 1) c)) ≠ "" := by
  refine trim_ne_empty ?_ hc
  rw [String.toList_ofList]
  exact mem_replicate.mpr ⟨Nat.succ_ne_zero n, rfl⟩

theorem charCount_eventLabel (source : EventSource) (producer : String) :
    charCount (eventLabel source producer) = charCount source.asStr + 5 + charCount producer := by
  have hv : " via ".toList.length = 5 := by decide
  simp only [charCount, eventLabel, String.toList_append, length_append, hv]

theorem longProducer_label : 200 < charCount (eventLabel .serviceHealth longProducer) := by
  have hs : charCount EventSource.serviceHealth.asStr = 14 := by decide
  have hp : charCount longProducer = 190 := charCount_replicate 190 'p'
  rw [charCount_eventLabel, hs, hp]
  omega

theorem serviceFabric_accepts :
    Accepted plainCodec serviceFabric.state .serviceHealth longProducer
      (.object [("event", .string "x")]) where
  connected := rfl
  producer := by
    have hp : charCount longProducer = 190 := charCount_replicate 190 'p'
    refine ⟨trim_replicate 189 (by decide), ?_⟩
    omega
  size := by decide
  object := ⟨_, rfl⟩
  disclosed := by
    refine ⟨_, Std.ExtTreeMap.getElem?_insert_self, rfl, ⟨"event", by simp, .string "x", rfl⟩, ?_⟩
    intro field hf value hg
    obtain rfl : field = "event" := by simpa using hf
    cases hg
    rfl

theorem intake_allOrNothing_sample :
    "event-0" ∉ serviceFabric.state.events ∧
      ¬ AllOrNothing plainCodec .builtIn ⟨serviceFabric.state, .default⟩ .serviceHealth
        longProducer (.object [("event", .string "x")]) 0 "event-0" (fun kind => kind) := by
  have hf : "event-0" ∉ serviceFabric.state.events := by
    simp [serviceFabric, disclosingFabric]
  refine ⟨hf, fun h => ?_⟩
  rcases (intake_allOrNothing_iff plainCodec .builtIn serviceFabric .default .serviceHealth
    longProducer (.object [("event", .string "x")]) 0 "event-0" (fun kind => kind) hf).mp h
    with h | h
  · exact h serviceFabric_accepts
  · exact absurd longProducer_label (not_lt.mpr h)

/-- An event is in the journal although its caller is told that it was refused. -/
theorem intake_keeps_refused_event :
    ¬ ∀ (codec : ValueCodec) (registry : RoutineRegistry) (fabric : EventFabric)
      (routines : RoutineState) (source : EventSource) (producer : String) (payload : Value)
      (now : ℕ) (id : String) (ids : String → String), id ∉ fabric.state.events →
        AllOrNothing codec registry ⟨fabric.state, routines⟩ source producer payload now id
          ids := by
  intro h
  have hf : "event-0" ∉ serviceFabric.state.events := by
    simp [serviceFabric, disclosingFabric]
  obtain ⟨⟨event, forward⟩, hp⟩ : ∃ prep, prepareEvent plainCodec
      (pruneEvents 0 serviceFabric.state) .serviceHealth longProducer
      (.object [("event", .string "x")]) 0 "event-0" = .ok prep :=
    (prepareEvent_prune_isOk_iff).mpr serviceFabric_accepts
  exact not_allOrNothing_of_prepared hp hf longProducer_label
    (h plainCodec .builtIn serviceFabric .default .serviceHealth longProducer
      (.object [("event", .string "x")]) 0 "event-0" (fun kind => kind) hf)

end FocalDesk
