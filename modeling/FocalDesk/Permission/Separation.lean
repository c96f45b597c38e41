import FocalDesk.Permission.Store

/-! Which rules a permission store keeps apart, in memory and through its file. -/
namespace FocalDesk
open Library List PersistedPermissionEntry SystemTime

namespace PersistentPermissionStore

variable {sto : PersistentPermissionStore} {a b : RuleId} {rule : PermissionState}

theorem get_set_of_ne (rule : PermissionState) (h : permissionKey rule.ruleId ≠ permissionKey b) :
    (sto.set rule).get b = sto.get b := by
  have hne : ¬ compare (permissionKey rule.ruleId) (permissionKey b) = .eq := by
    intro heq
    exact h (Std.LawfulEqCmp.eq_of_compare heq)
  simp only [get, set, Std.ExtTreeMap.getElem?_insert, if_neg hne]

theorem get_set_of_eq (h : permissionKey rule.ruleId = permissionKey b) :
    (sto.set rule).get b = some { rule with app := b.1 } := by
  simp [get, set, h]

theorem get_revoke_of_ne (h : permissionKey a ≠ permissionKey b) :
    (sto.revoke a).get b = sto.get b := by
  have hne : ¬ compare (permissionKey a) (permissionKey b) = .eq := by
    intro heq
    exact h (Std.LawfulEqCmp.eq_of_compare heq)
  simp only [get, revoke, Std.ExtTreeMap.getElem?_erase, if_neg hne]

theorem get_revoke_of_eq (h : permissionKey a = permissionKey b) : (sto.revoke a).get b = none := by
  simp [get, revoke, h]

end PersistentPermissionStore

/-! Reloading a saved store. -/

/-- A rule as its entry gives it back: with its flattened target and whole seconds. -/
def PermissionState.reloaded (state : PermissionState) : PermissionState :=
  { state with
    target := parseTarget (permissionTargetKey state.target)
    updatedAt := SystemTime.ofSeconds state.updatedAt.seconds }

theorem parseResource_key (resource : PermissionResource) :
    parseResource (permissionResourceKey resource) = some resource := by
  cases resource <;> rfl

theorem parseDecision_text (decision : PermissionDecision) :
    parseDecision (decisionText decision) = some decision := by
  cases decision <;> rfl

theorem parseScope_text (scope : PermissionScope) : parseScope (scopeText scope) = some scope := by
  cases scope <;> rfl

theorem persistedEntryToState_entry {key : PermissionKey} {st : PermissionState}
    (h : key.2 = (permissionResourceKey st.resource, permissionTargetKey st.target)) :
    persistedEntryToState (stateToPersistedEntry key st) =
      some { st.reloaded with app := .unknown } := by
  simp only [persistedEntryToState, stateToPersistedEntry, h, parseResource_key,
    parseDecision_text, parseScope_text]
  rfl

/-- A list of entries with distinct keys makes a store of exactly these entries. -/
theorem getElem?_loadEntries {file : List PersistedPermissionEntry} {key : PermissionKey}
    {st : PermissionState} (hn : (file.map PersistedPermissionEntry.key).Nodup) :
    (loadEntries file).entries[key]? = some st ↔
      ∃ e ∈ file, e.key = key ∧ persistedEntryToState e = some st := by
  induction file using List.reverseRecOn with
  | nil => simp [loadEntries]
  | append_singleton file e ih =>
    rw [map_append, nodup_append] at hn
    obtain ⟨hf, -, hnw⟩ := hn
    have ih := ih hf
    have ho : ∀ pre ∈ file, pre.key ≠ e.key := by
      intro pre he
      exact hnw pre.key (mem_map_of_mem he) e.key (by simp)
    simp only [loadEntries] at ih ⊢
    rw [foldl_append, foldl_cons, foldl_nil, loadEntry]
    cases hl : persistedEntryToState e with
    | none =>
      rw [ih]
      constructor
      · rintro ⟨pre, he, hk, hs⟩
        exact ⟨pre, mem_append_left _ he, hk, hs⟩
      · rintro ⟨pre, he, hk, hs⟩
        rcases mem_append.mp he with he | hla
        · exact ⟨pre, he, hk, hs⟩
        · obtain rfl := mem_singleton.mp hla
          rw [hl] at hs
          cases hs
    | some ld =>
      simp only [Std.ExtTreeMap.getElem?_insert]
      by_cases hk : e.key = key
      · subst hk
        simp only [Std.ReflCmp.compare_self, if_true, Option.some.injEq]
        constructor
        · rintro rfl
          exact ⟨e, by simp, rfl, hl⟩
        · rintro ⟨pre, he, hk, hs⟩
          rcases mem_append.mp he with he | hla
          · exact absurd hk (ho pre he)
          · obtain rfl := mem_singleton.mp hla
            exact Option.some.inj (hl.symm.trans hs)
      · have hne : ¬ compare e.key key = .eq := by
          intro heq
          exact hk (Std.LawfulEqCmp.eq_of_compare heq)
        rw [if_neg hne, ih]
        constructor
        · rintro ⟨pre, he, hsa, hs⟩
          exact ⟨pre, mem_append_left _ he, hsa, hs⟩
        · rintro ⟨pre, he, hsa, hs⟩
          rcases mem_append.mp he with he | hla
          · exact ⟨pre, he, hsa, hs⟩
          · obtain rfl := mem_singleton.mp hla
            exact absurd hsa hk

/-- What a reloaded store returns for a rule. -/
theorem get_loadFromPath {cod : TomlCodec} {store : PersistentPermissionStore} {text : String}
    (h : Saves cod store text) (rule : RuleId) :
    (loadFromPath cod (some text)).get rule = (store.get rule).map PermissionState.reloaded := by
  obtain ⟨file, hp, he⟩ := h
  have hl : loadFromPath cod (some text) = loadEntries file := by
    simp only [loadFromPath, Option.bind_some, cod.decode_encode file text he]
  have hk : (file.map PersistedPermissionEntry.key).Nodup := by
    apply (hp.map PersistedPermissionEntry.key).nodup_iff.mpr
    rw [map_map]
    have hf : (store.entries.toList.map
        (PersistedPermissionEntry.key ∘ fun e => stateToPersistedEntry e.1 e.2)) =
        store.entries.keys := by
      rw [← Std.ExtTreeMap.map_fst_toList_eq_keys]
      rfl
    rw [hf]
    exact Std.ExtTreeMap.nodup_keys
  have het : (loadEntries file).entries[permissionKey rule]? =
      store.entries[permissionKey rule]?.map fun st =>
        { st.reloaded with app := .unknown } := by
    apply Option.ext
    intro st
    rw [getElem?_loadEntries hk, Option.map_eq_some_iff]
    constructor
    · rintro ⟨e, hen, hke, hs⟩
      obtain ⟨⟨key, old⟩, hold, rfl⟩ := mem_map.mp (hp.mem_iff.mp hen)
      have hg : store.entries[key]? = some old :=
        Std.ExtTreeMap.mem_toList_iff_getElem?_eq_some.mp hold
      rw [persistedEntryToState_entry (store.keyed key old hg)] at hs
      obtain rfl : key = permissionKey rule := hke
      exact ⟨old, hg, Option.some.inj hs⟩
    · rintro ⟨old, hg, rfl⟩
      refine ⟨stateToPersistedEntry (permissionKey rule) old, ?_, rfl,
        persistedEntryToState_entry (store.keyed _ old hg)⟩
      exact hp.mem_iff.mpr (mem_map.mpr
        ⟨(permissionKey rule, old), Std.ExtTreeMap.mem_toList_iff_getElem?_eq_some.mpr hg, rfl⟩)
  rw [hl]
  simp only [PersistentPermissionStore.get, het, Option.map_map]
  rfl

theorem SystemTime.seconds_lt (time : SystemTime) : time.seconds < 9223372036854775808 := by
  have := time.bounded
  simp only [seconds]
  omega

theorem SystemTime.ofSeconds_seconds (time : SystemTime) :
    ofSeconds time.seconds = time ↔ 0 ≤ time.nanos ∧ time.nanos % 1000000000 = 0 := by
  have hn : (ofSeconds time.seconds).nanos =
      (time.nanos.toNat / 1000000000 : ℕ) * 1000000000 := by
    rw [ofSeconds, dif_pos time.seconds_lt]
    rfl
  constructor
  · intro h
    rw [h] at hn
    omega
  · rintro ⟨hp, hm⟩
    have hs : (ofSeconds time.seconds).nanos = time.nanos := by omega
    generalize ofSeconds time.seconds = loaded at hs
    cases loaded
    cases time
    congr

theorem parseTarget_key (target : PermissionTarget) :
    parseTarget (permissionTargetKey target) = target ↔ target ≠ .named "global" := by
  cases target with
  | global => simp [permissionTargetKey, parseTarget]
  | named name =>
    by_cases h : name = "global" <;> simp [permissionTargetKey, parseTarget, h]

/-- Which rules survive a save and a load as they were. -/
theorem PermissionState.reloaded_eq_iff (rule : PermissionState) : rule.reloaded = rule ↔
    rule.target ≠ .named "global" ∧ 0 ≤ rule.updatedAt.nanos ∧
      rule.updatedAt.nanos % 1000000000 = 0 := by
  rw [← parseTarget_key, ← ofSeconds_seconds]
  constructor
  · intro h
    exact ⟨congrArg PermissionState.target h, congrArg PermissionState.updatedAt h⟩
  · rintro ⟨ht, hti⟩
    simp only [PermissionState.reloaded, ht, hti]

/-! Histories of changes. -/

inductive PermissionChange where
  | set (rule : PermissionState)
  | revoke (rule : RuleId)

namespace PermissionChange

def ruleId : PermissionChange → RuleId
  | .set rule => rule.ruleId
  | .revoke rule => rule

/-- The rule a change leaves for its identity, resource and target. -/
def rule : PermissionChange → Option PermissionState
  | .set rule => some rule
  | .revoke _ => none

def perform (store : PersistentPermissionStore) : PermissionChange → PersistentPermissionStore
  | .set rule => store.set rule
  | .revoke rule => store.revoke rule

end PermissionChange

def PersistentPermissionStore.after (store : PersistentPermissionStore)
    (changes : List PermissionChange) : PersistentPermissionStore :=
  changes.foldl PermissionChange.perform store

/-- The rule that was set last, if it was not revoked since. -/
def lastRule (initial : Option PermissionState) (id : RuleId) (changes : List PermissionChange) :
    Option PermissionState :=
  changes.foldl (fun rule change => if change.ruleId = id then change.rule else rule) initial

/-- No other identity, resource and target that a history changes is flattened to the same key. -/
def Apart (changes : List PermissionChange) (id : RuleId) : Prop :=
  ∀ change ∈ changes, change.ruleId = id ∨ permissionKey change.ruleId ≠ permissionKey id

theorem get_after {store : PersistentPermissionStore} {chs : List PermissionChange}
    {id : RuleId} (h : Apart chs id) :
    (store.after chs).get id = lastRule (store.get id) id chs := by
  induction chs using List.reverseRecOn with
  | nil => rfl
  | append_singleton chs ch ih =>
    have ih := ih fun pre he => h pre (mem_append_left _ he)
    have ha : store.after (chs ++ [ch]) = ch.perform (store.after chs) := by
      simp [PersistentPermissionStore.after]
    have hl : lastRule (store.get id) id (chs ++ [ch]) =
        if ch.ruleId = id then ch.rule else lastRule (store.get id) id chs := by
      simp [lastRule]
    rw [ha, hl]
    by_cases hid : ch.ruleId = id
    · subst hid
      rw [if_pos rfl]
      cases ch with
      | set rule => exact PersistentPermissionStore.get_set_of_eq rfl
      | revoke rule => exact PersistentPermissionStore.get_revoke_of_eq rfl
    · have hk : permissionKey ch.ruleId ≠ permissionKey id :=
        (h ch (by simp)).resolve_left hid
      rw [if_neg hid, ← ih]
      cases ch with
      | set rule => exact PersistentPermissionStore.get_set_of_ne rule hk
      | revoke rule => exact PersistentPermissionStore.get_revoke_of_ne hk

end FocalDesk
