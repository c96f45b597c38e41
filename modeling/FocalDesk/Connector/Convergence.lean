import FocalDesk.Connector.TrustStore
import FocalDesk.Library.Transition

/-! Concurrent writers of the trust store: what is on disk when all of them have returned. -/
namespace FocalDesk
open Library List Std.ExtTreeMap Bool

def trustStoreVersion : ℕ := 1

def maxTrustStoreBytes : ℕ := 256 * 1024

structure TrustStoreDocument where
  version : ℕ
  connectors : BTreeMap String ConnectorRecord
  sourcePolicies : BTreeMap EventSource EventSourcePolicy

namespace ConnectorRegistryState

def document (state : ConnectorRegistryState) : TrustStoreDocument :=
  { version := trustStoreVersion, connectors := state.records,
    sourcePolicies := state.sourcePolicies }

def recordSuccess (state : ConnectorRegistryState) (connectorId : String) (now : ℕ) :
    ConnectorRegistryState :=
  { state with
    records := state.records.modify connectorId fun record =>
      { record with health := .healthy, lastEventAtUnix := some now, lastError := none } }

def recordError (state : ConnectorRegistryState) (connectorId error : String) :
    ConnectorRegistryState :=
  { state with
    records := state.records.modify connectorId fun record =>
      { record with
        health := .error, lastError := some (String.ofList (error.toList.take 500)) } }

end ConnectorRegistryState

/-- The serializer of the trust store. -/
structure TrustStoreCodec where
  Bytes : Type
  len : Bytes → ℕ
  toVecPretty : TrustStoreDocument → Bytes
  fromSlice : Bytes → Except String TrustStoreDocument
  /-- A document reads back as it was written. -/
  fromSlice_toVecPretty : ∀ document, fromSlice (toVecPretty document) = .ok document
  /-- The seven built-in records fit into the bound. -/
  len_memory : len (toVecPretty ConnectorRegistryState.memory.document) ≤ maxTrustStoreBytes

/-- What the trust store decides about a connector. -/
def ConnectorRecord.trusted (record : ConnectorRecord) : Bool × Bool × ConnectorManifest :=
  (record.enabled, record.networkAllowed, record.manifest)

/-! Opening a store. -/

/-- What the record of a document becomes over the records already there: an identity that
is known keeps its manifest. -/
def mergeRecord (known : Option ConnectorRecord) (record : ConnectorRecord) : ConnectorRecord :=
  match known with
  | some builtIn =>
    { builtIn with
      enabled := record.enabled
      networkAllowed := record.networkAllowed
      lastEventAtUnix := record.lastEventAtUnix
      lastError := record.lastError
      health := if record.enabled then .ready else .disabled }
  | none => record

def openRecord (records : BTreeMap String ConnectorRecord) (entry : String × ConnectorRecord) :
    Except String (BTreeMap String ConnectorRecord) := do
  let manifest ← entry.2.manifest.validate
  let record := { entry.2 with manifest }
  match records[manifest.id]? with
  | some builtIn => return records.insert manifest.id (mergeRecord (some builtIn) record)
  | none =>
    bailIf (manifest.builtIn = true) "trust store contains an unknown built-in connector identity"
    bailIf (record.networkAllowed = true ∧ manifest.networkDomains = [])
      "connector has network authority without declared domains"
    return records.insert manifest.id record

def openPolicy (policies : BTreeMap EventSource EventSourcePolicy)
    (entry : EventSource × EventSourcePolicy) :
    Except String (BTreeMap EventSource EventSourcePolicy) := do
  let policy ← entry.2.validate
  return policies.insert entry.1 policy

def openDocument (document : TrustStoreDocument) : Except String ConnectorRegistryState := do
  bailIf (document.version ≠ trustStoreVersion) "unsupported connector trust-store version"
  let records ← document.connectors.toList.foldlM openRecord builtInRecords
  let sourcePolicies ← document.sourcePolicies.toList.foldlM openPolicy document.sourcePolicies
  return { records, sourcePolicies, recentNonces := ∅ }

/-- `ConnectorRegistry::open`, up to the write it ends with. -/
def openStore (codec : TrustStoreCodec) (file : codec.Bytes) :
    Except String ConnectorRegistryState := do
  bailIf (maxTrustStoreBytes < codec.len file)
    "connector trust store must be a regular file no larger than 256 KiB"
  let document ← codec.fromSlice file
  openDocument document

/-! The writers. -/

/-- A call that has changed the registry, and then holds the bytes it will write. The
number says how many snapshots were taken before. -/
inductive TrustStoreWriter (codec : TrustStoreCodec) where
  | changed
  | encoded (number : ℕ) (bytes : codec.Bytes)

structure TrustStoreProcess (codec : TrustStoreCodec) where
  registry : ConnectorRegistryState
  file : codec.Bytes
  writers : BTreeMap ℕ (TrustStoreWriter codec)
  /-- The number of the last snapshot, of the snapshot on disk, and the last snapshot. -/
  snapshots : ℕ
  written : ℕ
  latest : codec.Bytes

inductive TrustStoreEvent where
  | call (writer : ℕ) (call : TrustStoreCall)
  | recordSuccess (writer : ℕ) (connectorId : String) (now : ℕ)
  | recordError (writer : ℕ) (connectorId error : String)
  | snapshot (writer : ℕ)
  | write (writer : ℕ)
  | reopen

namespace TrustStoreProcess
variable {codec : TrustStoreCodec}

/-- A process whose registry was just opened, which writes the store. -/
def opened (codec : TrustStoreCodec) (registry : ConnectorRegistryState) :
    TrustStoreProcess codec :=
  { registry, file := codec.toVecPretty registry.document, writers := ∅, snapshots := 0,
    written := 0, latest := codec.toVecPretty registry.document }

def mutate (process : TrustStoreProcess codec) (writer : ℕ) (registry : ConnectorRegistryState) :
    TrustStoreProcess codec :=
  { process with registry, writers := process.writers.insert writer .changed }

def step (process : TrustStoreProcess codec) : TrustStoreEvent → Option (TrustStoreProcess codec)
  | .call writer call =>
    if writer ∈ process.writers then none
    else
      match call.change process.registry with
      | .error _ => some process
      | .ok registry => some (process.mutate writer registry)
  | .recordSuccess writer connectorId now =>
    if writer ∈ process.writers then none
    else some (process.mutate writer (process.registry.recordSuccess connectorId now))
  | .recordError writer connectorId error =>
    if writer ∈ process.writers then none
    else some (process.mutate writer (process.registry.recordError connectorId error))
  | .snapshot writer =>
    match process.writers[writer]? with
    | some .changed =>
      let bytes := codec.toVecPretty process.registry.document
      some { process with
        writers := process.writers.insert writer (.encoded (process.snapshots + 1) bytes)
        snapshots := process.snapshots + 1
        latest := bytes }
    | _ => none
  | .write writer =>
    match process.writers[writer]? with
    | some (.encoded number bytes) =>
      some { process with
        file := bytes, written := number, writers := process.writers.erase writer }
    | _ => none
  | .reopen =>
    match openStore codec process.file with
    | .error _ => none
    | .ok registry => some (opened codec registry)

/-- The store on disk describes the registry, and opens to it. -/
def Converged (process : TrustStoreProcess codec) : Prop :=
  process.file = codec.toVecPretty process.registry.document ∧
    ∃ reopened, openStore codec process.file = .ok reopened ∧ ∀ connectorId : String,
      (reopened.records[connectorId]?).map ConnectorRecord.trusted =
        (process.registry.records[connectorId]?).map ConnectorRecord.trusted

/-- A write replaces an older snapshot, and no store that is written is too large to open. -/
def InOrder (process : TrustStoreProcess codec) : TrustStoreEvent → Prop
  | .write writer => ∀ number bytes,
      process.writers[writer]? = some (.encoded number bytes) →
        process.written < number ∧ codec.len bytes ≤ maxTrustStoreBytes
  | .reopen => ∀ registry, openStore codec process.file = .ok registry →
      codec.len (codec.toVecPretty registry.document) ≤ maxTrustStoreBytes
  | _ => True

end TrustStoreProcess

/-! Registries that open again. -/

/-- What the registry keeps about a record at all times. The fields of a built-in manifest
are in the order of its declaration, so only other manifests are as validation leaves them. -/
structure OpenableRecord (id : String) (record : ConnectorRecord) : Prop where
  identity : record.manifest.id = id
  accepted : ∃ valid, record.manifest.validate = .ok valid
  rollback : ∀ previous, record.rollback = some previous →
    previous.id = id ∧ previous.validate = .ok previous ∧ previous.builtIn = false
  builtIn : ∀ builtIn, builtInRecords[id]? = some builtIn → record.manifest = builtIn.manifest
  external : builtInRecords[id]? = none →
    record.manifest.validate = .ok record.manifest ∧ record.manifest.builtIn = false ∧
      (record.networkAllowed = true → record.manifest.networkDomains ≠ [])

structure Openable (state : ConnectorRegistryState) : Prop where
  records : ∀ id record, state.records[id]? = some record → OpenableRecord id record
  builtIns : ∀ id builtIn, builtInRecords[id]? = some builtIn → id ∈ state.records
  policies : ∀ (source : EventSource) policy, state.sourcePolicies[source]? = some policy →
    policy.validate = .ok policy

section Opening
variable {st reopened : ConnectorRegistryState} {id : String} {r builtIn : ConnectorRecord}
  {records : BTreeMap String ConnectorRecord} {policies : BTreeMap EventSource EventSourcePolicy}

theorem builtInRecords_cases (h : builtInRecords[id]? = some builtIn) :
    ∃ man ∈ builtInConnectors, man.id = id ∧ builtIn = .installed man none := by
  rcases getElem?_foldl_insert h with h | ⟨man, hm, hid, heq⟩
  · simp at h
  · exact ⟨man, hm, hid, heq.symm⟩

theorem validate_builtInConnectors :
    ∀ man ∈ builtInConnectors, man.validate.isOk ∧ man.builtIn := by
  decide +kernel

theorem builtIn_of_builtInRecords (h : builtInRecords[id]? = some builtIn) :
    builtIn.manifest.builtIn := by
  obtain ⟨man, hm, -, rfl⟩ := builtInRecords_cases h
  exact (validate_builtInConnectors man hm).2

theorem openable_memory : Openable .memory where
  records id r h := by
    have hg : builtInRecords[id]? = some r := h
    obtain ⟨man, hm, hid, rfl⟩ := builtInRecords_cases hg
    have hok := (validate_builtInConnectors man hm).1
    refine ⟨hid, ?_, nofun, fun builtIn hb => ?_, fun hn => ?_⟩
    · cases hv : man.validate with
      | error error => simp [hv, Except.isOk, Except.toBool] at hok
      | ok valid => exact ⟨valid, hv⟩
    · rw [hg] at hb
      cases hb
      rfl
    · rw [hg] at hn
      cases hn
  builtIns id builtIn h := mem_of_getElem? h
  policies source policy h := by simp [ConnectorRegistryState.memory] at h

/-- A record that opening takes as it is. -/
structure OpensOver (records : BTreeMap String ConnectorRecord) (entry : String × ConnectorRecord)
    : Prop where
  id : entry.2.manifest.id = entry.1
  known : ∀ builtIn, records[entry.1]? = some builtIn →
    ∃ valid, entry.2.manifest.validate = .ok valid
  unknown : records[entry.1]? = none → entry.2.manifest.validate = .ok entry.2.manifest ∧
    entry.2.manifest.builtIn = false ∧
      (entry.2.networkAllowed = true → entry.2.manifest.networkDomains ≠ [])

theorem openRecord_eq_ok {e : String × ConnectorRecord} (h : OpensOver records e) :
    openRecord records e = .ok (records.insert e.1 (mergeRecord records[e.1]? e.2)) := by
  cases hg : records[e.1]? with
  | some builtIn =>
    obtain ⟨valid, hv⟩ := h.known builtIn hg
    have hid : valid.id = e.1 := (ConnectorManifest.validate_id hv).1.trans h.id
    simp only [openRecord, hv, bind, Except.bind, hid, hg, pure, Except.pure]
    rfl
  | none =>
    obtain ⟨hv, he, hn⟩ := h.unknown hg
    have hb : ¬ e.2.manifest.builtIn := by simp [he]
    have hd : ¬ (e.2.networkAllowed ∧ e.2.manifest.networkDomains = []) := fun hba => hn hba.1 hba.2
    simp only [openRecord, hv, bind, Except.bind, h.id, hg, bailIf, if_neg hb,
      if_neg hd, pure, Except.pure]
    rfl

/-- Opening entries of distinct identities merges each of them into what was there. -/
theorem foldlM_openRecord {ents : List (String × ConnectorRecord)}
    (he : ∀ e ∈ ents, OpensOver records e) (hd : ents.Pairwise fun a b => a.1 ≠ b.1) :
    ∃ merged, ents.foldlM openRecord records = .ok merged ∧
      (∀ e ∈ ents, merged[e.1]? = some (mergeRecord records[e.1]? e.2)) ∧
      ∀ id, (∀ e ∈ ents, e.1 ≠ id) → merged[id]? = records[id]? := by
  induction ents generalizing records with
  | nil => exact ⟨records, rfl, by simp, fun _ _ => rfl⟩
  | cons e ents ih =>
    obtain ⟨hne, hd⟩ := pairwise_cons.mp hd
    have hen := openRecord_eq_ok (he e (by simp))
    have hk (other : String × ConnectorRecord) (hm : other ∈ ents) :
        (records.insert e.1 (mergeRecord records[e.1]? e.2))[other.1]? = records[other.1]? := by
      rw [Std.ExtTreeMap.getElem?_insert, if_neg]
      simpa using hne other hm
    obtain ⟨merged, hme, hin, hou⟩ := @ih
      (records.insert e.1 (mergeRecord records[e.1]? e.2))
      (fun other hm => by
        have ho := he other (by simp [hm])
        exact ⟨ho.id, fun builtIn h => ho.known builtIn (hk other hm ▸ h),
          fun h => ho.unknown (hk other hm ▸ h)⟩) hd
    refine ⟨merged, by simp only [foldlM_cons, hen, bind, Except.bind, hme], ?_, ?_⟩
    · intro other hm
      rcases mem_cons.mp hm with rfl | hm
      · rw [hou other.1 fun later hl => (hne later hl).symm]
        simp
      · rw [hin other hm, hk other hm]
    · intro id hid
      have hid' := forall_mem_cons.mp hid
      rw [hou id hid'.2, Std.ExtTreeMap.getElem?_insert, if_neg]
      simpa using hid'.1

theorem foldlM_openPolicy {ents : List (EventSource × EventSourcePolicy)}
    (h : ∀ e ∈ ents, policies[e.1]? = some e.2 ∧
      e.2.validate = .ok e.2) : ents.foldlM openPolicy policies = .ok policies := by
  induction ents with
  | nil => rfl
  | cons e ents ih =>
    obtain ⟨hg, hv⟩ := h e (by simp)
    have hs : policies.insert e.1 e.2 = policies := by
      apply Std.ExtTreeMap.ext_getElem?
      intro src
      rw [Std.ExtTreeMap.getElem?_insert]
      split
      case isTrue heq =>
        obtain rfl := Std.LawfulEqCmp.eq_of_compare heq
        exact hg.symm
      case isFalse => rfl
    have he : openPolicy policies e = .ok policies := by
      simp only [openPolicy, hv, bind, Except.bind, hs, pure, Except.pure]
    simp only [foldlM_cons, he, bind, Except.bind]
    exact ih fun other hm => h other (by simp [hm])

/-- The document of an openable registry opens, each record merged into its built-in one. -/
theorem openDocument_document (h : Openable st) :
    ∃ reopened, openDocument st.document = .ok reopened ∧
      reopened.sourcePolicies = st.sourcePolicies ∧
      ∀ id : String,
        reopened.records[id]? = (st.records[id]?).map (mergeRecord builtInRecords[id]?) := by
  have he : ∀ e ∈ st.records.toList, OpensOver builtInRecords e := by
    rintro ⟨id, r⟩ hm
    rw [mem_toList_iff_getElem?_eq_some] at hm
    have hr := h.records id r hm
    exact ⟨hr.identity, fun _ _ => hr.accepted, hr.external⟩
  have hd : st.records.toList.Pairwise fun a b => a.1 ≠ b.1 := by
    refine distinct_keys_toList.imp ?_
    intro a b hne heq
    exact hne (by rw [heq]; exact Std.ReflCmp.compare_self)
  obtain ⟨merged, hme, hin, ho⟩ := foldlM_openRecord he hd
  have hp : st.sourcePolicies.toList.foldlM openPolicy st.sourcePolicies =
      .ok st.sourcePolicies := by
    refine foldlM_openPolicy fun e hm => ?_
    rw [mem_toList_iff_getElem?_eq_some] at hm
    exact ⟨hm, h.policies _ _ hm⟩
  refine ⟨{ records := merged, sourcePolicies := st.sourcePolicies, recentNonces := ∅ }, ?_,
    rfl, fun id => ?_⟩
  · simp only [openDocument, ConnectorRegistryState.document, bailIf, ne_eq, not_true_eq_false,
      if_false, bind, Except.bind, hme, hp, pure, Except.pure]
  · cases hg : st.records[id]? with
    | some r =>
      have := hin (id, r) (mem_toList_iff_getElem?_eq_some.mpr hg)
      simpa using this
    | none =>
      have hbi : builtInRecords[id]? = none := by
        cases hb : builtInRecords[id]? with
        | none => rfl
        | some builtIn =>
          exact absurd (h.builtIns id builtIn hb) (not_mem_of_getElem? hg)
      have hk := ho id fun e hm heq => by
        subst heq
        rw [mem_toList_iff_getElem?_eq_some, hg] at hm
        cases hm
      exact hk.trans hbi

theorem mergeRecord_trusted (h : OpenableRecord id r) :
    (mergeRecord builtInRecords[id]? r).trusted = r.trusted := by
  cases hb : builtInRecords[id]? with
  | none => rfl
  | some builtIn => simp [mergeRecord, ConnectorRecord.trusted, h.builtIn builtIn hb]

theorem OpenableRecord.merge (h : OpenableRecord id r) :
    OpenableRecord id (mergeRecord builtInRecords[id]? r) := by
  cases hb : builtInRecords[id]? with
  | none => exact h
  | some builtIn =>
    have hs : (mergeRecord (some builtIn) r).manifest = r.manifest := (h.builtIn builtIn hb).symm
    refine ⟨hs ▸ h.identity, hs ▸ h.accepted, ?_, hs ▸ h.builtIn, fun hn => ?_⟩
    · intro prev hp
      obtain ⟨man, -, -, rfl⟩ := builtInRecords_cases hb
      cases hp
    · rw [hb] at hn
      cases hn

theorem Openable.of_openDocument (h : Openable st) (hop : openDocument st.document = .ok reopened)
    : Openable reopened := by
  obtain ⟨other, ho, hp, hr⟩ := openDocument_document h
  obtain rfl : other = reopened := Except.ok.inj (ho.symm.trans hop)
  constructor
  · intro id r hg
    rw [hr id, Option.map_eq_some_iff] at hg
    obtain ⟨pre, hpr, rfl⟩ := hg
    exact (h.records id pre hpr).merge
  · intro id builtIn hb
    obtain ⟨pre, hpr⟩ := exists_getElem?_of_mem (h.builtIns id builtIn hb)
    exact mem_of_getElem? (by rw [hr id, hpr]; rfl)
  · rw [hp]
    exact h.policies

/-! Every change keeps a registry openable. -/

theorem Openable.insert (h : Openable st) (hr : OpenableRecord id r) :
    Openable { st with records := st.records.insert id r } where
  records id' record' hget := by
    rw [Std.ExtTreeMap.getElem?_insert] at hget
    split at hget
    case isTrue heq =>
      obtain rfl := Std.LawfulEqCmp.eq_of_compare heq
      cases hget
      exact hr
    case isFalse => exact h.records id' record' hget
  builtIns id' builtIn hb := by
    rw [mem_insert]
    exact .inr (h.builtIns id' builtIn hb)
  policies := h.policies

/-- A change of the health of a record is no change of what it is trusted with. -/
theorem Openable.modify (h : Openable st) {upd : ConnectorRecord → ConnectorRecord}
    (ht : ∀ r, (upd r).trusted = r.trusted ∧ (upd r).rollback = r.rollback) (id : String) :
    Openable { st with records := st.records.modify id upd } where
  records id' record' hget := by
    rw [Std.ExtTreeMap.getElem?_modify] at hget
    split at hget
    case isTrue heq =>
      obtain rfl := Std.LawfulEqCmp.eq_of_compare heq
      obtain ⟨pre, hp, rfl⟩ := Option.map_eq_some_iff.mp hget
      have hr := h.records id pre hp
      obtain ⟨hs, hro⟩ := ht pre
      simp only [ConnectorRecord.trusted, Prod.mk.injEq] at hs
      obtain ⟨-, ha, hm⟩ := hs
      exact ⟨by rw [hm]; exact hr.identity, by rw [hm]; exact hr.accepted,
        by rw [hro]; exact hr.rollback, by rw [hm]; exact hr.builtIn,
        by rw [hm, ha]; exact hr.external⟩
    case isFalse => exact h.records id' record' hget
  builtIns id' builtIn hb := by
    rw [mem_modify]
    exact h.builtIns id' builtIn hb
  policies := h.policies

/-- A record of an identity that is not built in is external. -/
theorem Openable.not_builtIn (h : Openable st) (hg : st.records[id]? = some r)
    (he : r.manifest.builtIn = false) : builtInRecords[id]? = none := by
  cases hb : builtInRecords[id]? with
  | none => rfl
  | some builtIn =>
    have := builtIn_of_builtInRecords hb
    rw [← (h.records id r hg).builtIn builtIn hb, he] at this
    cases this

theorem openableRecord_installed {man : ConnectorManifest}
    {rollback : Option ConnectorManifest} (hv : man.validate = .ok man)
    (he : man.builtIn = false) (hn : builtInRecords[man.id]? = none)
    (hr : ∀ prev, rollback = some prev → prev.id = man.id ∧
      prev.validate = .ok prev ∧ prev.builtIn = false) :
    OpenableRecord man.id (.installed man rollback) where
  identity := rfl
  accepted := ⟨man, hv⟩
  rollback := hr
  builtIn builtIn hb := by
    rw [hn] at hb
    cases hb
  external _ := ⟨hv, he, nofun⟩

theorem Openable.installRecord (h : Openable st) {man : ConnectorManifest}
    {overwrite : Bool} (hi : st.installRecord man overwrite = .ok r) :
    OpenableRecord r.manifest.id r := by
  simp only [ConnectorRegistryState.installRecord, bind_eq_ok, bailIf_eq_ok, not_eq_true] at hi
  obtain ⟨valid, hv, -, hex, hi⟩ := hi
  have hs := ConnectorManifest.validate_validate hv
  cases hg : st.records[valid.id]? with
  | none =>
    rw [hg] at hi
    cases hi
    refine openableRecord_installed hs hex ?_ (by simp)
    cases hb : builtInRecords[valid.id]? with
    | none => exact hb
    | some builtIn => exact absurd (h.builtIns _ _ hb) (not_mem_of_getElem? hg)
  | some old =>
    rw [hg] at hi
    simp only [bind_eq_ok, bailIf_eq_ok, not_eq_true, pure_eq_ok] at hi
    obtain ⟨-, he, -, -, rfl⟩ := hi
    have hn := h.not_builtIn hg he
    have hr := h.records _ _ hg
    refine openableRecord_installed hs hex hn fun prev hp => ?_
    cases hp
    exact ⟨hr.identity, (hr.external hn).1, he⟩

theorem Openable.enabledRecordUpdate (h : Openable st) {enabled networkAllowed : Bool}
    (hu : st.enabledRecordUpdate id enabled networkAllowed = .ok r) :
    OpenableRecord id r := by
  simp only [ConnectorRegistryState.enabledRecordUpdate, bind_eq_ok, okOr_eq_ok, bailIf_eq_ok,
    pure_eq_ok] at hu
  obtain ⟨pre, hp, -, hd, rfl⟩ := hu
  have hr := h.records _ _ hp
  refine ⟨hr.identity, hr.accepted, hr.rollback, hr.builtIn, fun hn => ?_⟩
  obtain ⟨hs, hex, -⟩ := hr.external hn
  refine ⟨hs, hex, fun ha he => hd ⟨?_, he⟩⟩
  exact (and_eq_true_iff.mp ha).2

theorem Openable.rollbackRecord (h : Openable st) (hr : st.rollbackRecord id = .ok r)
    : OpenableRecord id r := by
  simp only [ConnectorRegistryState.rollbackRecord, bind_eq_ok, okOr_eq_ok, bailIf_eq_ok,
    pure_eq_ok, not_eq_true] at hr
  obtain ⟨pre, hp, -, he, prev, hpr, rfl⟩ := hr
  have hre := h.records _ _ hp
  have hn := h.not_builtIn hp he
  obtain ⟨hid, hs, hbi⟩ := hre.rollback prev hpr
  refine ⟨hid, ⟨prev, hs⟩, ?_, ?_, fun _ => ⟨hs, hbi, by simp⟩⟩
  · intro other ho
    cases ho
    exact ⟨hre.identity, (hre.external hn).1, he⟩
  · intro builtIn hb
    rw [hn] at hb
    cases hb

theorem Openable.change (h : Openable st) {call : TrustStoreCall}
    (hc : call.change st = .ok reopened) : Openable reopened := by
  cases call with
  | setSourcePolicy pol =>
    simp only [TrustStoreCall.change, bind_eq_ok, pure_eq_ok] at hc
    obtain ⟨valid, hv, rfl⟩ := hc
    refine ⟨h.records, h.builtIns, fun src other hg => ?_⟩
    rw [Std.ExtTreeMap.getElem?_insert] at hg
    split at hg
    case isTrue =>
      cases hg
      exact EventSourcePolicy.validate_validate hv
    case isFalse => exact h.policies src other hg
  | install man overwrite =>
    simp only [TrustStoreCall.change, bind_eq_ok, pure_eq_ok] at hc
    obtain ⟨r, hr, rfl⟩ := hc
    exact h.insert (h.installRecord hr)
  | setEnabled id enabled networkAllowed =>
    simp only [TrustStoreCall.change, bind_eq_ok, pure_eq_ok] at hc
    obtain ⟨r, hr, rfl⟩ := hc
    exact h.insert (h.enabledRecordUpdate hr)
  | rollback id =>
    simp only [TrustStoreCall.change, bind_eq_ok, pure_eq_ok] at hc
    obtain ⟨r, hr, rfl⟩ := hc
    exact h.insert (h.rollbackRecord hr)

end Opening

/-! The snapshots and the store on disk. -/

namespace TrustStoreProcess
variable {codec : TrustStoreCodec} {process proc next : TrustStoreProcess codec} {ev : TrustStoreEvent}

/-- The last snapshot is on disk or still with its writer, and it describes the registry
unless a writer has yet to take its snapshot. -/
structure Settling (process : TrustStoreProcess codec) : Prop where
  openable : Openable process.registry
  current : (∃ writer : ℕ, process.writers[writer]? = some .changed) ∨
    process.latest = codec.toVecPretty process.registry.document
  onDisk : process.written = process.snapshots → process.file = process.latest
  pending : process.written ≠ process.snapshots →
    ∃ writer : ℕ, process.writers[writer]? = some (.encoded process.snapshots process.latest)
  numbers : ∀ (writer : ℕ) number bytes,
    process.writers[writer]? = some (.encoded number bytes) →
      number ≤ process.snapshots ∧ (number = process.snapshots → bytes = process.latest)
  bounded : process.written ≤ process.snapshots
  size : codec.len process.file ≤ maxTrustStoreBytes
  described : ∃ state, Openable state ∧ process.file = codec.toVecPretty state.document
  describes : ∀ (writer : ℕ) number bytes,
    process.writers[writer]? = some (.encoded number bytes) →
      ∃ state, Openable state ∧ bytes = codec.toVecPretty state.document

theorem opened_settling {reg : ConnectorRegistryState} (h : Openable reg)
    (hs : codec.len (codec.toVecPretty reg.document) ≤ maxTrustStoreBytes) :
    (opened codec reg).Settling where
  openable := h
  current := .inr rfl
  onDisk _ := rfl
  pending h := absurd rfl h
  numbers writer number bytes hget := by simp [opened] at hget
  bounded := le_rfl
  size := hs
  described := ⟨reg, h, rfl⟩
  describes writer number bytes hget := by simp [opened] at hget

/-- A call that changes the registry joins the writers. -/
theorem Settling.mutate (h : proc.Settling) {wr : ℕ} {reg : ConnectorRegistryState}
    (hf : wr ∉ proc.writers) (ho : Openable reg) :
    (proc.mutate wr reg).Settling := by
  have hot {other : ℕ} {w : TrustStoreWriter codec} (hg : proc.writers[other]? = some w) :
      (proc.writers.insert wr .changed)[other]? = some w := by
    rw [Std.ExtTreeMap.getElem?_insert, if_neg, hg]
    intro heq
    obtain rfl := Std.LawfulEqCmp.eq_of_compare heq
    exact hf (mem_of_getElem? hg)
  have he {other : ℕ} {num : ℕ} {bytes : codec.Bytes}
      (hg : (proc.writers.insert wr .changed)[other]? = some (.encoded num bytes)) :
      proc.writers[other]? = some (.encoded num bytes) := by
    rw [Std.ExtTreeMap.getElem?_insert] at hg
    split at hg
    · cases hg
    · exact hg
  refine ⟨ho, .inl ⟨wr, by simp [TrustStoreProcess.mutate]⟩, h.onDisk, ?_, ?_,
    h.bounded, h.size, h.described, ?_⟩
  · intro hne
    obtain ⟨other, hg⟩ := h.pending hne
    exact ⟨other, hot hg⟩
  · exact fun other num bytes hg => h.numbers other num bytes (he hg)
  · exact fun other num bytes hg => h.describes other num bytes (he hg)

theorem Settling.snapshot (h : proc.Settling) {wr : ℕ}
    (hs : proc.step (.snapshot wr) = some next) : next.Settling := by
  simp only [step] at hs
  split at hs
  case h_2 => cases hs
  case h_1 =>
    cases hs
    refine ⟨h.openable, .inr rfl, ?_, ?_, ?_, Nat.le_succ_of_le h.bounded, h.size,
      h.described, ?_⟩
    · intro heq
      have := h.bounded
      simp only at heq
      omega
    · exact fun _ => ⟨wr, by simp⟩
    · intro other num bytes hg
      rw [Std.ExtTreeMap.getElem?_insert] at hg
      split at hg
      · cases hg
        exact ⟨le_rfl, fun _ => rfl⟩
      · have := (h.numbers other num bytes hg).1
        refine ⟨Nat.le_succ_of_le this, fun heq => ?_⟩
        simp only at heq
        omega
    · intro other num bytes hg
      rw [Std.ExtTreeMap.getElem?_insert] at hg
      split at hg
      · cases hg
        exact ⟨_, h.openable, rfl⟩
      · exact h.describes other num bytes hg

/-- A write in order leaves the last snapshot on disk or with another writer. -/
theorem Settling.write (h : proc.Settling) {wr : ℕ} (hok : proc.InOrder (.write wr))
    (hs : proc.step (.write wr) = some next) : next.Settling := by
  simp only [step] at hs
  split at hs
  case h_2 => cases hs
  case h_1 number bytes hw =>
    cases hs
    obtain ⟨hla, hsi⟩ := hok number bytes hw
    obtain ⟨hle, hl⟩ := h.numbers wr number bytes hw
    have ho {other : ℕ} {w : TrustStoreWriter codec} (hne : other ≠ wr)
        (hg : proc.writers[other]? = some w) :
        (proc.writers.erase wr)[other]? = some w := by
      rw [getElem?_erase, if_neg, hg]
      intro heq
      exact hne (Std.LawfulEqCmp.eq_of_compare heq).symm
    refine ⟨h.openable, ?_, hl, ?_, ?_, hle, hsi, h.describes _ _ _ hw, ?_⟩
    · rcases h.current with ⟨other, hg⟩ | hc
      · refine .inl ⟨other, ho ?_ hg⟩
        rintro rfl
        rw [hw] at hg
        cases hg
      · exact .inr hc
    · intro hne
      have hp := h.pending (by
        simp only at hne
        omega)
      obtain ⟨other, hg⟩ := hp
      refine ⟨other, ho ?_ hg⟩
      rintro rfl
      rw [hw] at hg
      cases hg
      exact hne rfl
    · exact fun other n b hg => h.numbers other n b (getElem?_of_erase hg)
    · exact fun other n b hg => h.describes other n b (getElem?_of_erase hg)

/-- The store that was last written opens. -/
theorem openStore_eq {state : ConnectorRegistryState} {file : codec.Bytes}
    (hs : codec.len file ≤ maxTrustStoreBytes)
    (hf : file = codec.toVecPretty state.document) :
    openStore codec file = openDocument state.document := by
  have hn : ¬ maxTrustStoreBytes < codec.len file := not_lt.mpr hs
  subst hf
  simp only [openStore, bailIf, if_neg hn, codec.fromSlice_toVecPretty, bind, Except.bind]

theorem step_settling (hs : proc.step ev = some next) (hok : proc.InOrder ev)
    (h : proc.Settling) : next.Settling := by
  cases ev with
  | call wr call =>
    simp only [step] at hs
    split at hs
    · cases hs
    case isFalse hf =>
      split at hs
      · cases hs
        exact h
      case h_2 registry hc =>
        cases hs
        exact h.mutate hf (h.openable.change hc)
  | recordSuccess wr id now =>
    simp only [step] at hs
    split at hs
    · cases hs
    case isFalse hf =>
      cases hs
      have ho : Openable (proc.registry.recordSuccess id now) := by
        apply h.openable.modify
        intro record
        exact ⟨rfl, rfl⟩
      exact h.mutate hf ho
  | recordError wr id err =>
    simp only [step] at hs
    split at hs
    · cases hs
    case isFalse hf =>
      cases hs
      have ho : Openable (proc.registry.recordError id err) := by
        apply h.openable.modify
        intro record
        exact ⟨rfl, rfl⟩
      exact h.mutate hf ho
  | snapshot wr => exact h.snapshot hs
  | write wr => exact h.write hok hs
  | reopen =>
    simp only [step] at hs
    split at hs
    · cases hs
    case h_2 registry hop =>
      cases hs
      obtain ⟨state, hst, hfi⟩ := h.described
      rw [openStore_eq h.size hfi] at hop
      refine opened_settling (hst.of_openDocument hop) ?_
      exact hok registry ((openStore_eq h.size hfi).trans hop)

theorem Settling.converged (h : proc.Settling) (hq : proc.writers = ∅) :
    proc.Converged := by
  have hn (wr : ℕ) : proc.writers[wr]? = none := by simp [hq]
  have hc : proc.latest = codec.toVecPretty proc.registry.document := by
    rcases h.current with ⟨wr, hg⟩ | hc
    · rw [hn] at hg
      cases hg
    · exact hc
  have hw : proc.written = proc.snapshots := by
    by_contra hne
    obtain ⟨wr, hg⟩ := h.pending hne
    rw [hn] at hg
    cases hg
  have hf := (h.onDisk hw).trans hc
  obtain ⟨reopened, ho, -, hr⟩ := openDocument_document h.openable
  refine ⟨hf, reopened, (openStore_eq h.size hf).trans ho, fun id => ?_⟩
  rw [hr id]
  cases hg : proc.registry.records[id]? with
  | none => rfl
  | some record =>
    exact congrArg some (mergeRecord_trusted (h.openable.records id record hg))

end TrustStoreProcess

instance {codec : TrustStoreCodec} (process : TrustStoreProcess codec) :
    DecidablePred process.InOrder
  | .write writer =>
    match hget : process.writers[writer]? with
    | some (.encoded number bytes) =>
      decidable_of_iff (process.written < number ∧ codec.len bytes ≤ maxTrustStoreBytes)
        ⟨fun h n b hn => by
          rw [hget] at hn
          cases hn
          exact h, fun h => h number bytes hget⟩
    | some .changed => isTrue fun n b hn => by
        rw [hget] at hn
        cases hn
    | none => isTrue fun n b hn => by
        rw [hget] at hn
        cases hn
  | .reopen =>
    match hopen : openStore codec process.file with
    | .ok registry =>
      decidable_of_iff (codec.len (codec.toVecPretty registry.document) ≤ maxTrustStoreBytes)
        ⟨fun h r hr => by
          rw [hopen] at hr
          cases hr
          exact h, fun h => h registry hopen⟩
    | .error _ => isTrue fun r hr => by
        rw [hopen] at hr
        cases hr
  | .call _ _ | .recordSuccess _ _ _ | .recordError _ _ _ | .snapshot _ => isTrue trivial

/-- A codec that keeps a document and counts 700 bytes for each of its connectors. -/
def documentCodec : TrustStoreCodec where
  Bytes := TrustStoreDocument
  len document := 700 * document.connectors.size
  toVecPretty document := document
  fromSlice document := .ok document
  fromSlice_toVecPretty _ := rfl
  len_memory := by decide +kernel

def enableConnector (connectorId : String) : TrustStoreCall := .setEnabled connectorId true false

end FocalDesk
