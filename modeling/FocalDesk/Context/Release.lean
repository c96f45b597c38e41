import FocalDesk.Context.Broker
import FocalDesk.Event.Intake
import Mathlib.Data.List.Induction

/-! Context release: what an agent is shown, from the grants that were issued. -/
namespace FocalDesk
open Library List

/-- The identifier of the record that a call makes. -/
def ContextCall.newId (call : ContextCall) : Option String :=
  match call.operation with
  | .publish id .. | .grant id .. | .suggest id .. => some id
  | _ => none

/-- The calls of one process: its clock does not go back and no random identifier repeats. -/
structure ContextHistory (calls : List ContextCall) : Prop where
  clock : calls.Pairwise fun a b => a.now ≤ b.now
  fresh : (calls.filterMap ContextCall.newId).Nodup

/-- The envelope that a call publishes. -/
def ContextCall.published (codec : ValueCodec) (call : ContextCall) : Option ContextEnvelope :=
  match call.operation with
  | .publish id kind provenance sensitivity payload ttlSeconds =>
    (makeEnvelope codec call.now id kind provenance sensitivity payload ttlSeconds).toOption
  | _ => none

/-- The grant that a call issues. -/
def ContextCall.issued (call : ContextCall) : Option ContextGrant :=
  match call.operation with
  | .grant id agentId kinds ttlSeconds =>
    (makeGrant call.now id agentId kinds ttlSeconds).toOption
  | _ => none

/-- The grants that were issued and not revoked, after one more call. -/
def recordGrant (grants : List ContextGrant) (call : ContextCall) : List ContextGrant :=
  match call.operation with
  | .revoke grantId => grants.filter fun grant => grant.id ≠ grantId
  | _ => grants ++ call.issued.toList

def unrevokedGrants (calls : List ContextCall) : List ContextGrant := calls.foldl recordGrant []

/-- The grants a history leaves in force at a time. -/
def liveGrants (calls : List ContextCall) (now : ℕ) : List ContextGrant :=
  (unrevokedGrants calls).filter fun grant => now < grant.expiresAtUnix

/-- A live grant of the agent and the filter of the caller both cover the kind. -/
def Covered (calls : List ContextCall) (now : ℕ) (agentId : String)
    (allowed : Option (List ContextKind)) (kind : ContextKind) : Prop :=
  (∃ grant ∈ liveGrants calls now, grant.agentId = agentId ∧ kind ∈ grant.kinds) ∧
    ∀ kinds ∈ allowed, kind ∈ kinds

/-- The calls that can change which items are retained, apart from expiry. -/
def ContextCall.changesItems (call : ContextCall) : Bool :=
  match call.operation with
  | .publish .. | .clear => true
  | _ => false

variable {codec : ValueCodec} {calls others : List ContextCall} {call : ContextCall}
  {state : ContextState} {now : ℕ} {item : ContextEnvelope} {grant : ContextGrant}

theorem published_eq_some (h : call.published codec = some item) :
    ∃ id kind provenance sensitivity pl ttlSeconds,
      call.operation = .publish id kind provenance sensitivity pl ttlSeconds ∧
      makeEnvelope codec call.now id kind provenance sensitivity pl ttlSeconds = .ok item := by
  unfold ContextCall.published at h
  split at h
  case h_1 id kind provenance sensitivity pl ttlSeconds hop =>
    exact ⟨id, kind, provenance, sensitivity, pl, ttlSeconds, hop, toOption_eq_some.mp h⟩
  case h_2 => cases h

theorem newId_of_published (h : call.published codec = some item) :
    call.newId = some item.id ∧ item.createdAtUnix = call.now := by
  obtain ⟨id, kind, provenance, sensitivity, pl, ttlSeconds, hop, hm⟩ := published_eq_some h
  simp only [makeEnvelope, unit_bind_eq_ok, pure_eq_ok] at hm
  obtain ⟨-, -, -, rfl⟩ := hm
  simp [ContextCall.newId, hop]

theorem issued_eq_some (h : call.issued = some grant) :
    ∃ id aid kinds ttlSeconds, call.operation = .grant id aid kinds ttlSeconds ∧
      makeGrant call.now id aid kinds ttlSeconds = .ok grant := by
  unfold ContextCall.issued at h
  split at h
  case h_1 id aid kinds ttlSeconds hop =>
    exact ⟨id, aid, kinds, ttlSeconds, hop, toOption_eq_some.mp h⟩
  case h_2 => cases h

theorem newId_of_issued (h : call.issued = some grant) :
    call.newId = some grant.id ∧ grant.revoked = false := by
  obtain ⟨id, aid, kinds, ttlSeconds, hop, hm⟩ := issued_eq_some h
  simp only [makeGrant, unit_bind_eq_ok, pure_eq_ok] at hm
  obtain ⟨-, -, rfl⟩ := hm
  simp [ContextCall.newId, hop]

theorem brokerAfter_snoc (codec : ValueCodec) (calls : List ContextCall) (call : ContextCall) :
    brokerAfter codec (calls ++ [call]) = call.perform codec (brokerAfter codec calls) := by
  simp [brokerAfter]

theorem unrevokedGrants_snoc (calls : List ContextCall) (call : ContextCall) :
    unrevokedGrants (calls ++ [call]) = recordGrant (unrevokedGrants calls) call := by
  simp [unrevokedGrants]

theorem ContextHistory.init (h : ContextHistory (calls ++ [call])) : ContextHistory calls := by
  refine ⟨(pairwise_append.mp h.clock).1, ?_⟩
  have hf := h.fresh
  rw [filterMap_append] at hf
  exact (nodup_append.mp hf).1

theorem ContextHistory.le (h : ContextHistory (calls ++ [call])) :
    ∀ pre ∈ calls, pre.now ≤ call.now := by
  intro pre hm
  exact (pairwise_append.mp h.clock).2.2 pre hm call (mem_singleton_self _)

theorem ContextHistory.not_mem (h : ContextHistory (calls ++ [call])) {id : String}
    (hid : call.newId = some id) : id ∉ calls.filterMap ContextCall.newId := by
  intro hm
  have hf := h.fresh
  rw [filterMap_append] at hf
  apply (nodup_append.mp hf).2.2 id hm id _ rfl
  simp [hid]

/-! The items. -/

theorem perform_items_of_published (state : ContextState) (h : call.published codec = some item)
    : (call.perform codec state).items = (makeRoom (pruneContext call.now state).items).insert
      item.id item := by
  obtain ⟨id, kind, provenance, sensitivity, pl, ttlSeconds, hop, hm⟩ := published_eq_some h
  simp [ContextCall.perform, hop, publishContext, hm]

/-- Any other call drops expired items at most, or all of them. -/
theorem perform_items_cases (state : ContextState) (h : call.published codec = none) :
    (call.perform codec state).items = state.items ∨
      (call.perform codec state).items = (pruneContext call.now state).items ∨
      call.operation = .clear ∧ (call.perform codec state).items = ∅ := by
  cases hop : call.operation with
  | publish id kind provenance sensitivity pl ttlSeconds =>
    simp only [ContextCall.published, hop] at h
    simp only [ContextCall.perform, hop, publishContext]
    cases hm : makeEnvelope codec call.now id kind provenance sensitivity pl ttlSeconds with
    | error error => exact .inl rfl
    | ok envl =>
      rw [hm] at h
      cases h
  | grant id aid kinds ttlSeconds =>
    simp only [ContextCall.perform, hop, grantContext]
    cases makeGrant call.now id aid kinds ttlSeconds with
    | error error => exact .inl rfl
    | ok grant => exact .inr (.inl rfl)
  | suggest id aid ttl body ttlSeconds =>
    simp only [ContextCall.perform, hop, suggestContext]
    split
    · exact .inl rfl
    · exact .inr (.inl rfl)
  | clear => exact .inr (.inr ⟨rfl, by simp [ContextCall.perform, hop, clearContext]⟩)
  | forAgent aid allowed => exact .inr (.inl (by simp [ContextCall.perform, hop, forAgent]))
  | snapshot => exact .inr (.inl (by simp [ContextCall.perform, hop]))
  | revoke grantId => exact .inl (by simp [ContextCall.perform, hop, revokeContext])
  | dismissSuggestion suggestionId =>
    exact .inl (by simp [ContextCall.perform, hop, dismissContextSuggestion])

/-! The grants. -/

theorem perform_grants_of_issued (codec : ValueCodec) (state : ContextState)
    (h : call.issued = some grant) : (call.perform codec state).grants =
      (pruneContext call.now state).grants.insert grant.id grant := by
  obtain ⟨id, aid, kinds, ttlSeconds, hop, hm⟩ := issued_eq_some h
  simp [ContextCall.perform, hop, grantContext, hm]

/-- Any other call drops expired grants at most, or revokes one. -/
theorem perform_grants_cases (codec : ValueCodec) (state : ContextState) (h : call.issued = none) :
    (∃ grantId, call.operation = .revoke grantId ∧ (call.perform codec state).grants =
      state.grants.modify grantId fun grant => { grant with revoked := true }) ∨
    (∀ grs, recordGrant grs call = grs) ∧
      ((call.perform codec state).grants = state.grants ∨
        (call.perform codec state).grants = (pruneContext call.now state).grants) := by
  cases hop : call.operation with
  | publish id kind provenance sensitivity pl ttlSeconds =>
    refine .inr ⟨fun grs => by simp [recordGrant, hop, h], ?_⟩
    simp only [ContextCall.perform, hop, publishContext]
    cases makeEnvelope codec call.now id kind provenance sensitivity pl ttlSeconds with
    | error error => exact .inl rfl
    | ok envl => exact .inr rfl
  | grant id aid kinds ttlSeconds =>
    refine .inr ⟨fun grs => by simp [recordGrant, hop, h], ?_⟩
    simp only [ContextCall.issued, hop] at h
    simp only [ContextCall.perform, hop, grantContext]
    cases hm : makeGrant call.now id aid kinds ttlSeconds with
    | error error => exact .inl rfl
    | ok grant =>
      rw [hm] at h
      cases h
  | suggest id aid ttl body ttlSeconds =>
    refine .inr ⟨fun grs => by simp [recordGrant, hop, h], ?_⟩
    simp only [ContextCall.perform, hop, suggestContext]
    split
    · exact .inl rfl
    · exact .inr rfl
  | revoke grantId =>
    exact .inl ⟨grantId, rfl, by simp [ContextCall.perform, hop, revokeContext]⟩
  | forAgent aid allowed =>
    exact .inr ⟨fun grs => by simp [recordGrant, hop, h],
      .inr (by simp [ContextCall.perform, hop, forAgent])⟩
  | snapshot =>
    exact .inr ⟨fun grs => by simp [recordGrant, hop, h],
      .inr (by simp [ContextCall.perform, hop])⟩
  | clear =>
    exact .inr ⟨fun grs => by simp [recordGrant, hop, h],
      .inl (by simp [ContextCall.perform, hop, clearContext])⟩
  | dismissSuggestion suggestionId =>
    exact .inr ⟨fun grs => by simp [recordGrant, hop, h],
      .inl (by simp [ContextCall.perform, hop, dismissContextSuggestion])⟩

theorem getElem?_prune_grants {id : String} :
    (pruneContext now state).grants[id]? = some grant ↔
      state.grants[id]? = some grant ∧ now < grant.expiresAtUnix := by
  simp only [pruneContext, getElem?_filter_eq_some, decide_eq_true_eq]

theorem getElem?_prune_items {id : String} :
    (pruneContext now state).items[id]? = some item ↔
      state.items[id]? = some item ∧ now < item.expiresAtUnix := by
  simp only [pruneContext, getElem?_filter_eq_some, decide_eq_true_eq]

/-- The store holds the unrevoked grants of the history, as far as they have not expired. -/
structure Ledger (calls : List ContextCall) (state : ContextState) : Prop where
  keyed : Keyed ContextGrant.id state.grants
  recorded : ∀ (id : String) grant, state.grants[id]? = some grant → grant.revoked = false →
    grant ∈ unrevokedGrants calls
  numbered : ∀ grant ∈ unrevokedGrants calls, grant.id ∈ calls.filterMap ContextCall.newId
  unrevoked : ∀ grant ∈ unrevokedGrants calls, grant.revoked = false
  kept : ∀ grant ∈ unrevokedGrants calls,
    state.grants[grant.id]? = some grant ∨ ∃ call ∈ calls, grant.expiresAtUnix ≤ call.now

theorem ledger_default : Ledger [] ContextState.default := by
  constructor <;> simp [Keyed, ContextState.default, unrevokedGrants]

/-- Pruning at a call loses only grants that have expired by then. -/
theorem Ledger.kept_prune (h : Ledger calls state) (hg : grant ∈ unrevokedGrants calls) :
    (pruneContext call.now state).grants[grant.id]? = some grant ∨
      ∃ other ∈ calls ++ [call], grant.expiresAtUnix ≤ other.now := by
  rcases h.kept grant hg with hge | ⟨other, hm, hle⟩
  · by_cases hl : call.now < grant.expiresAtUnix
    · exact .inl (getElem?_prune_grants.mpr ⟨hge, hl⟩)
    · exact .inr ⟨call, by simp, Nat.le_of_not_lt hl⟩
  · exact .inr ⟨other, mem_append_left _ hm, hle⟩

theorem Ledger.issue (h : Ledger calls state) (hi : call.issued = some grant)
    (hn : grant.id ∉ calls.filterMap ContextCall.newId) :
    Ledger (calls ++ [call]) (call.perform codec state) := by
  obtain ⟨hid, hr⟩ := newId_of_issued hi
  have hop : ∀ grs, recordGrant grs call = grs ++ [grant] := by
    intro grs
    obtain ⟨id, aid, kinds, ttlSeconds, hop, -⟩ := issued_eq_some hi
    simp [recordGrant, hop, hi]
  have hl : unrevokedGrants (calls ++ [call]) = unrevokedGrants calls ++ [grant] := by
    rw [unrevokedGrants_snoc, hop]
  have hg := perform_grants_of_issued codec state hi
  constructor
  · rw [hg]
    exact (h.keyed.filter _).insert grant
  · intro id other hge ho
    rw [hg, Std.ExtTreeMap.getElem?_insert] at hge
    rw [hl, mem_append, mem_singleton]
    split at hge
    · exact .inr (Option.some.inj hge).symm
    · exact .inl (h.recorded id other (getElem?_prune_grants.mp hge).1 ho)
  · intro other ho
    rw [hl, mem_append, mem_singleton] at ho
    rw [filterMap_append, mem_append]
    rcases ho with ho | rfl
    · exact .inl (h.numbered other ho)
    · exact .inr (by simp [hid])
  · intro other ho
    rw [hl, mem_append, mem_singleton] at ho
    rcases ho with ho | rfl
    · exact h.unrevoked other ho
    · exact hr
  · intro other ho
    rw [hl, mem_append, mem_singleton] at ho
    rw [hg, Std.ExtTreeMap.getElem?_insert]
    rcases ho with ho | rfl
    · have hne : ¬ compare grant.id other.id = .eq := by
        intro heq
        apply hn
        rw [Std.LawfulEqCmp.eq_of_compare heq]
        exact h.numbered other ho
      rw [if_neg hne]
      exact h.kept_prune ho
    · simp

theorem Ledger.revoke (h : Ledger calls state) {grantId : String}
    (hop : call.operation = .revoke grantId) (hgr : (call.perform codec state).grants =
      state.grants.modify grantId fun grant => { grant with revoked := true }) :
    Ledger (calls ++ [call]) (call.perform codec state) := by
  have hl : unrevokedGrants (calls ++ [call]) =
      (unrevokedGrants calls).filter fun grant => grant.id ≠ grantId := by
    rw [unrevokedGrants_snoc]
    simp [recordGrant, hop]
  have hm : ∀ other, other ∈ unrevokedGrants (calls ++ [call]) ↔
      other ∈ unrevokedGrants calls ∧ other.id ≠ grantId := by
    intro other
    simp [hl]
  constructor
  · intro id other hg
    rw [hgr, Std.ExtTreeMap.getElem?_modify] at hg
    split at hg
    case isTrue heq =>
      obtain ⟨old, hold, rfl⟩ := Option.map_eq_some_iff.mp hg
      exact (h.keyed grantId old hold).trans (Std.LawfulEqCmp.eq_of_compare heq)
    case isFalse => exact h.keyed id other hg
  · intro id other hg ho
    rw [hgr, Std.ExtTreeMap.getElem?_modify] at hg
    split at hg
    case isTrue =>
      obtain ⟨old, -, rfl⟩ := Option.map_eq_some_iff.mp hg
      cases ho
    case isFalse hne =>
      refine (hm other).mpr ⟨h.recorded id other hg ho, ?_⟩
      rintro rfl
      apply hne
      rw [h.keyed id other hg]
      exact Std.ReflCmp.compare_self
  · intro other ho
    rw [filterMap_append]
    exact mem_append_left _ (h.numbered other ((hm other).mp ho).1)
  · intro other ho
    exact h.unrevoked other ((hm other).mp ho).1
  · intro other ho
    obtain ⟨hold, hne⟩ := (hm other).mp ho
    rcases h.kept other hold with hg | ⟨pre, he, hle⟩
    · left
      rw [hgr, Std.ExtTreeMap.getElem?_modify, if_neg]
      · exact hg
      · intro heq
        exact hne (Std.LawfulEqCmp.eq_of_compare heq).symm
    · exact .inr ⟨pre, mem_append_left _ he, hle⟩

theorem Ledger.keep (h : Ledger calls state) (hl : ∀ grs, recordGrant grs call = grs)
    (hg : (call.perform codec state).grants = state.grants ∨
      (call.perform codec state).grants = (pruneContext call.now state).grants) :
    Ledger (calls ++ [call]) (call.perform codec state) := by
  have hs : unrevokedGrants (calls ++ [call]) = unrevokedGrants calls := by
    rw [unrevokedGrants_snoc, hl]
  have hsu : ∀ (id : String) other, (call.perform codec state).grants[id]? = some other →
      state.grants[id]? = some other := by
    intro id other hge
    rcases hg with hg | hg <;> rw [hg] at hge
    · exact hge
    · exact (getElem?_prune_grants.mp hge).1
  constructor
  · intro id other hge
    exact h.keyed id other (hsu id other hge)
  · intro id other hge ho
    rw [hs]
    exact h.recorded id other (hsu id other hge) ho
  · intro other ho
    rw [hs] at ho
    rw [filterMap_append]
    exact mem_append_left _ (h.numbered other ho)
  · intro other ho
    rw [hs] at ho
    exact h.unrevoked other ho
  · intro other ho
    rw [hs] at ho
    rcases hg with hg | hg <;> rw [hg]
    · rcases h.kept other ho with hge | ⟨pre, he, hle⟩
      · exact .inl hge
      · exact .inr ⟨pre, mem_append_left _ he, hle⟩
    · exact h.kept_prune ho

theorem brokerAfter_ledger (codec : ValueCodec) (h : ContextHistory calls) :
    Ledger calls (brokerAfter codec calls) := by
  induction calls using List.reverseRecOn with
  | nil => exact ledger_default
  | append_singleton calls call ih =>
    rw [brokerAfter_snoc]
    have hl := ih h.init
    cases hi : call.issued with
    | some grant => exact hl.issue hi (h.not_mem (newId_of_issued hi).1)
    | none =>
      rcases perform_grants_cases codec (brokerAfter codec calls) hi with
        ⟨grantId, hop, hg⟩ | ⟨hli, hg⟩
      · exact hl.revoke hop hg
      · exact hl.keep hli hg

/-- The unrevoked grants that the pruned store holds are the live ones of the history. -/
theorem mem_liveGrants (codec : ValueCodec) (h : ContextHistory calls)
    (hn : ∀ call ∈ calls, call.now ≤ now) : grant ∈ liveGrants calls now ↔
      (pruneContext now (brokerAfter codec calls)).grants[grant.id]? = some grant ∧
        grant.revoked = false := by
  have hl := brokerAfter_ledger codec h
  rw [liveGrants, mem_filter, decide_eq_true_eq, getElem?_prune_grants]
  constructor
  · rintro ⟨hm, hli⟩
    refine ⟨⟨?_, hli⟩, hl.unrevoked grant hm⟩
    rcases hl.kept grant hm with hg | ⟨call, hc, hle⟩
    · exact hg
    · have := hn call hc
      omega
  · rintro ⟨⟨hg, hli⟩, hr⟩
    exact ⟨hl.recorded _ grant hg hr, hli⟩

/-- The kinds that `forAgent` finds granted are those of the live grants of the agent. -/
theorem mem_grantedKinds (codec : ValueCodec) (h : ContextHistory calls)
    (hn : ∀ call ∈ calls, call.now ≤ now) (aid : String) (kind : ContextKind) :
    kind ∈ grantedKinds (pruneContext now (brokerAfter codec calls)) aid ↔
      ∃ grant ∈ liveGrants calls now, grant.agentId = aid ∧ kind ∈ grant.kinds := by
  have hke : Keyed ContextGrant.id (pruneContext now (brokerAfter codec calls)).grants :=
    (brokerAfter_ledger codec h).keyed.filter _
  simp only [grantedKinds, mem_flatMap, mem_filter, Bool.and_eq_true, Bool.not_eq_true', beq_iff_eq]
  constructor
  · rintro ⟨grant, ⟨hm, hr, ha⟩, hk⟩
    have hg := getElem?_of_mem_values hke hm
    exact ⟨grant, (mem_liveGrants codec h hn).mpr ⟨hg, hr⟩, ha, hk⟩
  · rintro ⟨grant, hgr, ha, hk⟩
    obtain ⟨hg, hr⟩ := (mem_liveGrants codec h hn).mp hgr
    exact ⟨grant, ⟨mem_values_of_getElem? hg, hr, ha⟩, hk⟩

/-! The items that are shown. -/

theorem mem_releasedItems (hk : Keyed ContextEnvelope.id state.items) {aid : String}
    {allowed : Option (List ContextKind)} : item ∈ releasedItems state aid allowed ↔
      state.items[item.id]? = some item ∧ item.kind ∈ grantedKinds state aid ∧
        ∀ kinds ∈ allowed, item.kind ∈ kinds := by
  have hv : item ∈ state.items.toList.map Prod.snd ↔ state.items[item.id]? = some item :=
    ⟨getElem?_of_mem_values hk, mem_values_of_getElem?⟩
  rw [releasedItems, mem_insertionSort, mem_filter, hv]
  cases allowed <;> simp

theorem nodup_releasedItems (hk : Keyed ContextEnvelope.id state.items) (aid : String)
    (allowed : Option (List ContextKind)) :
    ((releasedItems state aid allowed).map ContextEnvelope.id).Nodup := by
  have hke : (state.items.toList.map Prod.snd).map ContextEnvelope.id = state.items.keys := by
    rw [map_map, ← Std.ExtTreeMap.map_fst_toList_eq_keys]
    apply map_congr_left
    rintro ⟨id, other⟩ hm
    exact hk id other (Std.ExtTreeMap.mem_toList_iff_getElem?_eq_some.mp hm)
  have hp := perm_insertionSort (fun a b : ContextEnvelope =>
    a.createdAtUnix ≤ b.createdAtUnix) ((state.items.toList.map Prod.snd).filter fun item =>
      (grantedKinds state aid).contains item.kind &&
        allowed.all fun allowed => allowed.contains item.kind)
  apply (hp.map ContextEnvelope.id).nodup_iff.mpr
  apply List.Nodup.sublist (filter_sublist.map ContextEnvelope.id)
  rw [hke]
  exact Std.ExtTreeMap.nodup_keys

/-! The items that are retained. -/

/-- The store holds published items only, and not more than there is room for. -/
structure Retention (codec : ValueCodec) (calls : List ContextCall) (state : ContextState) :
    Prop where
  keyed : Keyed ContextEnvelope.id state.items
  published : ∀ (id : String) item, state.items[id]? = some item →
    ∃ call ∈ calls, call.published codec = some item
  bounded : state.items.size ≤ maxContextItems

theorem Retention.mono (h : Retention codec calls state) {st' : ContextState}
    (hs : ∀ (id : String) item, st'.items[id]? = some item → state.items[id]? = some item)
    (hsi : st'.items.size ≤ state.items.size) : Retention codec (calls ++ [call]) st' := by
  refine ⟨fun id item hg => h.keyed id item (hs id item hg), ?_, hsi.trans h.bounded⟩
  intro id item hg
  obtain ⟨pre, he, hi⟩ := h.published id item (hs id item hg)
  exact ⟨pre, mem_append_left _ he, hi⟩

theorem size_filter_le {κ ν : Type} [Ord κ] [Std.TransOrd κ] (m : BTreeMap κ ν)
    (keep : κ → ν → Bool) : (m.filter keep).size ≤ m.size := by
  exact Std.ExtTreeMap.size_filter_le_size

theorem Retention.publish (h : Retention codec calls state) (hpu : call.published codec = some item)
    :
    Retention codec (calls ++ [call]) (call.perform codec state) := by
  have hi := perform_items_of_published state hpu
  have hp : Keyed ContextEnvelope.id (pruneContext call.now state).items := h.keyed.filter _
  have hs : ∀ (id : String) other, (makeRoom (pruneContext call.now state).items)[id]? =
      some other → state.items[id]? = some other := by
    intro id other hg
    exact (getElem?_prune_items.mp (getElem?_of_evictOldest hg)).1
  constructor
  · rw [hi]
    apply Keyed.insert
    intro id other hg
    exact h.keyed id other (hs id other hg)
  · intro id other hg
    rw [hi, Std.ExtTreeMap.getElem?_insert] at hg
    split at hg
    · cases hg
      exact ⟨call, by simp, hpu⟩
    · obtain ⟨pre, he, ho⟩ := h.published id other (hs id other hg)
      exact ⟨pre, mem_append_left _ he, ho⟩
  · have hr : (makeRoom (pruneContext call.now state).items).size < maxContextItems :=
      size_evictOldest_lt (by decide) hp le_rfl
    have hin : ((makeRoom (pruneContext call.now state).items).insert item.id item).size ≤
        (makeRoom (pruneContext call.now state).items).size + 1 :=
      Std.ExtTreeMap.size_insert_le
    rw [hi]
    omega

theorem brokerAfter_retention (codec : ValueCodec) (calls : List ContextCall) :
    Retention codec calls (brokerAfter codec calls) := by
  induction calls using List.reverseRecOn with
  | nil => constructor <;> simp [Keyed, brokerAfter, ContextState.default]
  | append_singleton calls call ih =>
    rw [brokerAfter_snoc]
    cases hp : call.published codec with
    | some item => exact ih.publish hp
    | none =>
      rcases perform_items_cases (brokerAfter codec calls) hp with
        hi | hi | ⟨-, hi⟩
      · exact ih.mono (fun id item hg => hi ▸ hg) (by rw [hi])
      · apply ih.mono
        · intro id item hg
          rw [hi] at hg
          exact (getElem?_prune_items.mp hg).1
        · rw [hi]
          exact size_filter_le _ _
      · exact ih.mono (by simp [hi]) (by simp [hi])

/-- `Displaced codec calls call item`: the call published an item when the store was full
of unexpired ones, and no item that stays was created before this one. -/
def Displaced (codec : ValueCodec) (calls : List ContextCall) (call : ContextCall)
    (item : ContextEnvelope) : Prop :=
  (call.published codec).isSome ∧
    maxContextItems ≤ (pruneContext call.now (brokerAfter codec calls)).items.size ∧
    ∀ other : ContextEnvelope, (brokerAfter codec (calls ++ [call])).items[other.id]? = some other →
      item.createdAtUnix ≤ other.createdAtUnix

/-- An item leaves the store when it has expired, when the store is cleared, or when it is
one of the oldest and its place is taken. -/
theorem displaced_of_gone (h : ContextHistory (calls ++ [call]))
    (hit : (brokerAfter codec calls).items[item.id]? = some item)
    (hg : (brokerAfter codec (calls ++ [call])).items[item.id]? ≠ some item)
    (hl : call.now < item.expiresAtUnix) (hcl : call.operation ≠ .clear) :
    Displaced codec calls call item := by
  rw [brokerAfter_snoc] at hg
  have hp := getElem?_prune_items.mpr ⟨hit, hl⟩
  cases hpb : call.published codec with
  | none =>
    rcases perform_items_cases (brokerAfter codec calls) hpb with
      hi | hi | ⟨hop, -⟩
    · exact absurd (hi ▸ hit) hg
    · exact absurd (hi ▸ hp) hg
    · exact absurd hop hcl
  | some new =>
    have hk : Keyed ContextEnvelope.id
        (pruneContext call.now (brokerAfter codec calls)).items :=
      (brokerAfter_retention codec calls).keyed.filter _
    obtain ⟨hid, hc⟩ := newId_of_published hpb
    obtain ⟨publisher, hpu, hold⟩ := (brokerAfter_retention codec calls).published _ _ hit
    obtain ⟨hoi, hoc⟩ := newId_of_published hold
    have hne : ¬ compare new.id item.id = .eq := by
      intro heq
      apply h.not_mem hid
      rw [Std.LawfulEqCmp.eq_of_compare heq]
      exact mem_filterMap.mpr ⟨publisher, hpu, hoi⟩
    have hi := perform_items_of_published (brokerAfter codec calls) hpb
    rw [hi, Std.ExtTreeMap.getElem?_insert, if_neg hne] at hg
    have hn : (makeRoom (pruneContext call.now (brokerAfter codec calls)).items)[item.id]? =
        none := by
      cases hr : (makeRoom (pruneContext call.now (brokerAfter codec calls)).items)[item.id]? with
      | none => rfl
      | some kept =>
        have := getElem?_of_evictOldest hr
        rw [hp] at this
        exact absurd (hr.trans this.symm) hg
    refine ⟨by rw [hpb]; rfl, ?_, ?_⟩
    · by_contra hlt
      rw [makeRoom, evictOldest_of_room (Nat.lt_of_not_le hlt), hp] at hn
      cases hn
    · intro other ho
      rw [brokerAfter_snoc, hi, Std.ExtTreeMap.getElem?_insert] at ho
      split at ho
      · cases ho
        rw [hoc, hc]
        exact h.le publisher hpu
      · exact rank_le_of_evictOldest hk hp hn ho

/-! Two histories with the same publications. -/

theorem filter_filter_self {κ ν : Type} [Ord κ] [Std.TransOrd κ] [Std.LawfulEqOrd κ]
    (m : BTreeMap κ ν) (keep : κ → ν → Bool) : (m.filter keep).filter keep = m.filter keep := by
  apply Std.ExtTreeMap.ext_getElem?
  intro k
  apply Option.ext
  intro v
  rw [getElem?_filter_eq_some, getElem?_filter_eq_some]
  tauto

/-- Items that agree up to expiry agree up to a later expiry. -/
theorem prune_items_mono {st' : ContextState} {pre : ℕ} (hle : pre ≤ now)
    (h : (pruneContext pre state).items = (pruneContext pre st').items) :
    (pruneContext now state).items = (pruneContext now st').items := by
  have hp : ∀ state : ContextState, (pruneContext now state).items =
      (pruneContext now (pruneContext pre state)).items := by
    intro state
    apply Std.ExtTreeMap.ext_getElem?
    intro id
    apply Option.ext
    intro item
    rw [getElem?_prune_items, getElem?_prune_items, getElem?_prune_items]
    constructor
    · rintro ⟨hg, hl⟩
      exact ⟨⟨hg, by omega⟩, hl⟩
    · rintro ⟨⟨hg, -⟩, hl⟩
      exact ⟨hg, hl⟩
  rw [hp state, hp st']
  simp only [pruneContext] at h ⊢
  rw [h]

theorem perform_items_of_not_changing (codec : ValueCodec) (state : ContextState)
    (h : call.changesItems = false) :
    (call.perform codec state).items = state.items ∨
      (call.perform codec state).items = (pruneContext call.now state).items := by
  have hp : call.published codec = none := by
    cases hp : call.published codec with
    | none => rfl
    | some item =>
      obtain ⟨id, kind, provenance, sensitivity, pl, ttlSeconds, hop, -⟩ := published_eq_some hp
      simp [ContextCall.changesItems, hop] at h
  rcases perform_items_cases state hp with hi | hi | ⟨hop, -⟩
  · exact .inl hi
  · exact .inr hi
  · simp [ContextCall.changesItems, hop] at h

/-- A publication and a clearing depend on the unexpired items only. -/
theorem perform_items_congr {st' : ContextState}
    (h : (pruneContext call.now state).items = (pruneContext call.now st').items)
    (hn : call.now ≤ now) (hc : call.changesItems) :
    (pruneContext now (call.perform codec state)).items =
      (pruneContext now (call.perform codec st')).items := by
  cases hp : call.published codec with
  | some item =>
    simp only [pruneContext, perform_items_of_published _ hp] at h ⊢
    rw [h]
  | none =>
    cases hop : call.operation with
    | clear => simp [pruneContext, ContextCall.perform, hop, clearContext]
    | publish id kind provenance sensitivity pl ttlSeconds =>
      have hs : ∀ state, call.perform codec state = state := by
        intro state
        simp only [ContextCall.published, hop] at hp
        simp only [ContextCall.perform, hop, publishContext]
        cases hm : makeEnvelope codec call.now id kind provenance sensitivity pl ttlSeconds with
        | error error => rfl
        | ok envl =>
          rw [hm] at hp
          cases hp
      rw [hs, hs]
      exact prune_items_mono hn h
    | _ => simp [ContextCall.changesItems, hop] at hc

/-- The unexpired items depend only on the publications and the clearings. -/
theorem items_of_visible (codec : ValueCodec) (h : calls.Pairwise fun a b => a.now ≤ b.now)
    (hn : ∀ call ∈ calls, call.now ≤ now) :
    (pruneContext now (brokerAfter codec calls)).items =
      (pruneContext now (brokerAfter codec (calls.filter ContextCall.changesItems))).items := by
  induction calls using List.reverseRecOn generalizing now with
  | nil => rfl
  | append_singleton calls call ih =>
    obtain ⟨hcl, -, hle⟩ := pairwise_append.mp h
    have he : ∀ pre ∈ calls, pre.now ≤ call.now := by
      intro pre hm
      exact hle pre hm call (mem_singleton_self _)
    have hca : call.now ≤ now := hn call (by simp)
    have ih := ih hcl he
    rw [filter_append, brokerAfter_snoc]
    cases hc : call.changesItems with
    | true =>
      rw [filter_cons_of_pos hc, filter_nil, brokerAfter_snoc]
      exact perform_items_congr ih hca hc
    | false =>
      rw [filter_cons_of_neg (by simp [hc]), filter_nil, append_nil]
      rw [← prune_items_mono hca ih]
      rcases perform_items_of_not_changing codec (brokerAfter codec calls) hc with
        hi | hi
      · simp only [pruneContext, hi]
      · apply prune_items_mono hca
        simp only [pruneContext] at hi ⊢
        rw [hi, filter_filter_self]

/-- Context release is what live grants allow. For the calls of one process up to `now`: an
agent is shown exactly the retained unexpired items of a kind that one of its live grants and
the filter cover, once each and oldest first; no more items are retained than there is room
for; an unexpired item goes only when the store is cleared or when it is among the oldest of a
full store; and another history with the same publications and clearings that leaves the agent
the same live grants shows it the same items. -/
theorem context_release (codec : ValueCodec) (h : ContextHistory calls)
    (hnow : ∀ call ∈ calls, call.now ≤ now) (agentId : String) (allowed : Option (List ContextKind))
    :
    (∀ item, item ∈ (forAgent (brokerAfter codec calls) now agentId allowed).2 ↔
      (brokerAfter codec calls).items[item.id]? = some item ∧ now < item.expiresAtUnix ∧
        Covered calls now agentId allowed item.kind) ∧
    ((forAgent (brokerAfter codec calls) now agentId allowed).2.map ContextEnvelope.id).Nodup ∧
    (forAgent (brokerAfter codec calls) now agentId allowed).2.Pairwise
      (fun a b => a.createdAtUnix ≤ b.createdAtUnix) ∧
    (brokerAfter codec calls).items.size ≤ maxContextItems ∧
    (∀ call item, ContextHistory (calls ++ [call]) →
      (brokerAfter codec calls).items[item.id]? = some item →
      (brokerAfter codec (calls ++ [call])).items[item.id]? ≠ some item →
      item.expiresAtUnix ≤ call.now ∨ call.operation = .clear ∨ Displaced codec calls call item) ∧
    ∀ others, ContextHistory others → (∀ call ∈ others, call.now ≤ now) →
      others.filter ContextCall.changesItems = calls.filter ContextCall.changesItems →
      (∀ grant : ContextGrant, grant.agentId = agentId →
        (grant ∈ liveGrants others now ↔ grant ∈ liveGrants calls now)) →
      (forAgent (brokerAfter codec others) now agentId allowed).2 =
        (forAgent (brokerAfter codec calls) now agentId allowed).2 := by
  have hle := brokerAfter_ledger codec h
  have hr := brokerAfter_retention codec calls
  have hp : Keyed ContextEnvelope.id (pruneContext now (brokerAfter codec calls)).items :=
    hr.keyed.filter _
  refine ⟨fun item => ?_, ?_, pairwise_insertionSort _ _, hr.bounded, ?_, ?_⟩
  · simp only [forAgent]
    rw [mem_releasedItems hp, getElem?_prune_items, mem_grantedKinds codec h hnow, and_assoc]
    rfl
  · exact nodup_releasedItems hp agentId allowed
  · intro call item hca hit hgo
    by_cases hl : call.now < item.expiresAtUnix
    · by_cases hc : call.operation = .clear
      · exact .inr (.inl hc)
      · exact .inr (.inr (displaced_of_gone hca hit hgo hl hc))
    · exact .inl (Nat.le_of_not_lt hl)
  · intro others hot ho hv hgr
    have hi : (pruneContext now (brokerAfter codec others)).items =
        (pruneContext now (brokerAfter codec calls)).items := by
      rw [items_of_visible codec hot.clock ho, hv, ← items_of_visible codec h.clock hnow]
    have hki : ∀ kind, kind ∈ grantedKinds (pruneContext now (brokerAfter codec others)) agentId ↔
        kind ∈ grantedKinds (pruneContext now (brokerAfter codec calls)) agentId := by
      intro kind
      rw [mem_grantedKinds codec hot ho, mem_grantedKinds codec h hnow]
      constructor
      · rintro ⟨grant, hg, ha, hk⟩
        exact ⟨grant, (hgr grant ha).mp hg, ha, hk⟩
      · rintro ⟨grant, hg, ha, hk⟩
        exact ⟨grant, (hgr grant ha).mpr hg, ha, hk⟩
    simp only [forAgent, releasedItems, hi, contains_eq_mem, hki]

/-- A snapshot of the active window is published and the desktop agent is granted its kind. -/
def editorSnapshot : ContextCall :=
  { now := 100, operation := .publish "ctx-1" .activeWindow "desktop snapshot" .privateData
      (.object [("event", .string "x")]) 60 }

def editorCalls : List ContextCall :=
  [editorSnapshot, { now := 101, operation := .grant "ctxg-1" "desktop" [.activeWindow] 60 }]

def editorEnvelope : ContextEnvelope :=
  { id := "ctx-1", kind := .activeWindow, provenance := "desktop snapshot",
    sensitivity := .privateData, payload := .object [("event", .string "x")],
    createdAtUnix := 100, expiresAtUnix := 160 }

theorem context_release_sample :
    editorEnvelope ∈ (forAgent (brokerAfter plainCodec editorCalls) 102 "desktop" none).2 := by
  have hh : ContextHistory editorCalls := ⟨by decide, by decide⟩
  have hn : ∀ call ∈ editorCalls, call.now ≤ 102 := by decide
  have hp : editorSnapshot.published plainCodec = some editorEnvelope := rfl
  have hi : (brokerAfter plainCodec editorCalls).items =
      (pruneContext 101 (editorSnapshot.perform plainCodec ContextState.default)).items := rfl
  have hs : (brokerAfter plainCodec editorCalls).items[editorEnvelope.id]? =
      some editorEnvelope := by
    rw [hi, getElem?_prune_items, perform_items_of_published _ hp]
    exact ⟨Std.ExtTreeMap.getElem?_insert_self, by decide⟩
  have hc : Covered editorCalls 102 "desktop" none .activeWindow := by
    refine ⟨⟨_, mem_singleton_self _, rfl, mem_sortDedup.mpr (mem_singleton_self _)⟩, ?_⟩
    intro kinds hk
    cases hk
  exact ((context_release plainCodec hh hn "desktop" none).1 editorEnvelope).mpr
    ⟨hs, by decide, hc⟩

end FocalDesk
