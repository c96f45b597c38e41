import FocalDesk.Library.Eviction
import FocalDesk.Library.Progress
import FocalDesk.Library.Search
import FocalDesk.Registry.Store

/-! Locking a package with everything that it depends on, at exact versions. -/
namespace FocalDesk
open Library Relation Std.ExtTreeMap Prod

structure FaiPackageLockEntry where
  packageId : String
  version : String
  digestSha256 : String
  signerPublicKeyHex : String
deriving DecidableEq

structure FaiPackageLock where
  version : ℕ
  registryId : String
  catalogSequence : ℕ
  packages : List FaiPackageLockEntry

namespace FaiListedEntry

/-- The dependencies as they are pushed: the one listed last is on top. -/
def pushed (entry : FaiListedEntry) : List Coordinates :=
  (entry.dependencies.map FaiPackageDependency.coordinates).reverse

def lockEntry (entry : FaiListedEntry) : FaiPackageLockEntry :=
  { packageId := entry.packageId, version := entry.version, digestSha256 := entry.digestSha256,
    signerPublicKeyHex := entry.signerPublicKeyHex }

/-- The same entry, but for the order of its dependencies. -/
structure Reordered (entry entry' : FaiListedEntry) : Prop where
  same : entry' = { entry with dependencies := entry'.dependencies }
  dependencies : entry.dependencies.Perm entry'.dependencies

namespace Reordered
variable {entry e' : FaiListedEntry}

theorem symm (h : Reordered entry e') : Reordered e' entry where
  same := by rw [h.same]
  dependencies := h.dependencies.symm

theorem coordinates (h : Reordered entry e') : e'.coordinates = entry.coordinates := by
  rw [h.same]
  rfl

theorem lockEntry (h : Reordered entry e') : e'.lockEntry = entry.lockEntry := by
  rw [h.same]
  rfl

theorem revoked (h : Reordered entry e') : e'.revoked = entry.revoked := by
  rw [h.same]

end Reordered

end FaiListedEntry

variable {listed : BTreeMap Coordinates FaiListedEntry} {pend : List Coordinates}
  {selected final : BTreeMap String FaiPackageLockEntry} {catalog other : FaiRegistryCatalog}
  {root c d : Coordinates} {entry : FaiListedEntry} {error : String}
  {locked : FaiPackageLockEntry}

/-- The listed coordinates whose package is not selected yet. -/
def unselected (index : BTreeMap Coordinates FaiListedEntry)
    (selected : BTreeMap String FaiPackageLockEntry) : ℕ :=
  index.keys.countP fun coordinates => decide (coordinates.1 ∉ selected)

/-- A selection uses up coordinates of the index. -/
theorem unselected_insert (he : listed[c]? = some entry) (hn : selected[c.1]? = none) :
    unselected listed (selected.insert c.1 locked) < unselected listed selected := by
  refine countP_lt (a := c) ?_ ?_ ?_ ?_
  · exact mem_keys.mpr (mem_of_getElem? he)
  · exact decide_eq_true (not_mem_of_getElem? hn)
  · exact decide_eq_false (not_not.mpr mem_insert_self)
  · intro other ho hou
    have hm := of_decide_eq_true hou
    exact decide_eq_true fun hs => hm (mem_insert.mpr (.inr hs))

/-- The loop of `resolve_catalog_lock`, with the last pushed coordinates first. -/
def resolvePending (index : BTreeMap Coordinates FaiListedEntry) :
    List Coordinates → BTreeMap String FaiPackageLockEntry →
      Except String (BTreeMap String FaiPackageLockEntry)
  | [], selected => .ok selected
  | (id, version) :: pending, selected =>
    match _hselected : selected[id]? with
    | some existing =>
      if existing.version ≠ version then
        .error ("dependency graph requires conflicting exact versions for " ++ id)
      else resolvePending index pending selected
    | none =>
      match _hentry : index[(id, version)]? with
      | none => .error ("catalog is missing dependency " ++ id ++ " " ++ version)
      | some entry =>
        if entry.revoked then .error ("dependency " ++ id ++ " " ++ version ++ " is revoked")
        else
          resolvePending index (entry.pushed ++ pending)
            (selected.insert id
              { packageId := id, version, digestSha256 := entry.digestSha256,
                signerPublicKeyHex := entry.signerPublicKeyHex })
termination_by pending selected => (unselected index selected, pending.length)
decreasing_by
  · exact Prod.Lex.right _ (Nat.lt_succ_self _)
  · exact Prod.Lex.left _ _ (unselected_insert _hentry _hselected)

/-! What one round does. -/

section Rounds
variable {id version : String}

theorem resolvePending_selected (hs : selected[id]? = some locked) :
    resolvePending listed ((id, version) :: pend) selected =
      if locked.version ≠ version then
        .error ("dependency graph requires conflicting exact versions for " ++ id)
      else resolvePending listed pend selected := by
  rw [resolvePending]
  split
  case h_1 existing heq =>
    rw [hs] at heq
    cases heq
    rfl
  case h_2 heq =>
    rw [hs] at heq
    cases heq

theorem resolvePending_missing (hs : selected[id]? = none) (he : listed[(id, version)]? = none) :
    resolvePending listed ((id, version) :: pend) selected =
      .error ("catalog is missing dependency " ++ id ++ " " ++ version) := by
  rw [resolvePending]
  split
  case h_1 heq =>
    rw [hs] at heq
    cases heq
  case h_2 =>
    split
    case h_1 => rfl
    case h_2 heq =>
      rw [he] at heq
      cases heq

theorem resolvePending_listed (hs : selected[id]? = none) (he : listed[(id, version)]? = some entry)
    :
    resolvePending listed ((id, version) :: pend) selected =
      if entry.revoked then .error ("dependency " ++ id ++ " " ++ version ++ " is revoked")
      else
        resolvePending listed (entry.pushed ++ pend)
          (selected.insert id
            { packageId := id, version, digestSha256 := entry.digestSha256,
              signerPublicKeyHex := entry.signerPublicKeyHex }) := by
  rw [resolvePending]
  split
  case h_1 heq =>
    rw [hs] at heq
    cases heq
  case h_2 =>
    split
    case h_1 heq =>
      rw [he] at heq
      cases heq
    case h_2 found heq =>
      rw [he] at heq
      cases heq
      rfl

end Rounds

/-- Of two entries with the same coordinates the later one counts. -/
def FaiRegistryCatalog.index (catalog : FaiRegistryCatalog) :
    BTreeMap Coordinates FaiListedEntry :=
  indexBy FaiListedEntry.coordinates id catalog.packages

def resolveCatalogLock (signed : FaiSignedCatalog) (packageId version : String) :
    Except String FaiPackageLock := do
  let selected ← resolvePending signed.catalog.index [(packageId, version)] ∅
  return {
    version := privateRegistryVersion
    registryId := signed.catalog.registryId
    catalogSequence := signed.catalog.sequence
    packages := selected.toList.map Prod.snd }

namespace FaiRegistryCatalog

/-- A listed package version depends on another one. -/
def Requires (catalog : FaiRegistryCatalog) (c d : Coordinates) : Prop :=
  ∃ entry ∈ catalog.packages, entry.coordinates = c ∧
    d ∈ entry.dependencies.map FaiPackageDependency.coordinates

def Reaches (catalog : FaiRegistryCatalog) (root c : Coordinates) : Prop :=
  ReflTransGen catalog.Requires root c

/-- All that a root needs is listed and not revoked, in one version of each package. -/
structure Resolvable (catalog : FaiRegistryCatalog) (root : Coordinates) : Prop where
  present : ∀ c, catalog.Reaches root c → ∃ entry ∈ catalog.packages, entry.coordinates = c
  unrevoked : ∀ entry ∈ catalog.packages, catalog.Reaches root entry.coordinates →
    entry.revoked = false
  oneVersion : ∀ c d, catalog.Reaches root c → catalog.Reaches root d → c.1 = d.1 → c = d

/-- A lock holds what a root needs, each package once. -/
structure Locks (catalog : FaiRegistryCatalog) (root : Coordinates) (lock : FaiPackageLock) :
    Prop where
  version : lock.version = privateRegistryVersion
  registryId : lock.registryId = catalog.registryId
  catalogSequence : lock.catalogSequence = catalog.sequence
  distinct : (lock.packages.map FaiPackageLockEntry.packageId).Nodup
  exact : ∀ locked, locked ∈ lock.packages ↔
    ∃ entry ∈ catalog.packages, catalog.Reaches root entry.coordinates ∧ entry.lockEntry = locked

/-- Every version of a package is listed once. -/
def Unique (catalog : FaiRegistryCatalog) : Prop :=
  (catalog.packages.map FaiListedEntry.coordinates).Nodup

instance : Decidable catalog.Unique := inferInstanceAs (Decidable (List.Nodup _))

/-- The same catalog, but for the order in which its entries list their dependencies. -/
structure Reordered (catalog other : FaiRegistryCatalog) : Prop where
  registryId : other.registryId = catalog.registryId
  sequence : other.sequence = catalog.sequence
  packages : List.Forall₂ FaiListedEntry.Reordered catalog.packages other.packages

theorem getElem?_index (hu : catalog.Unique) :
    catalog.index[c]? = some entry ↔ entry ∈ catalog.packages ∧ entry.coordinates = c := by
  rw [index, getElem?_indexBy hu]
  constructor
  · rintro ⟨entry, he, hc, rfl⟩
    exact ⟨he, hc⟩
  · rintro ⟨he, hc⟩
    exact ⟨entry, he, hc, rfl⟩

theorem requires_iff (hu : catalog.Unique) (he : catalog.index[c]? = some entry) :
    catalog.Requires c d ↔ d ∈ entry.pushed := by
  rw [FaiListedEntry.pushed, List.mem_reverse]
  obtain ⟨hm, hc⟩ := (getElem?_index hu).mp he
  constructor
  · rintro ⟨other, ho, hco, hd⟩
    have hs := (getElem?_index hu).mpr ⟨ho, hco⟩
    rw [he] at hs
    cases hs
    exact hd
  · intro hd
    exact ⟨entry, hm, hc, hd⟩

end FaiRegistryCatalog

open FaiRegistryCatalog

/-- The coordinates that a selection holds. -/
def selection (selected : BTreeMap String FaiPackageLockEntry) : Set Coordinates :=
  {c | ∃ locked, selected[c.1]? = some locked ∧ locked.version = c.2}

theorem selection_insert (hn : selected[c.1]? = none) (hv : locked.version = c.2) :
    selection (selected.insert c.1 locked) = insert c (selection selected) := by
  ext d
  simp only [selection, Set.mem_insert_iff, Set.mem_ofPred_eq, getElem?_insert,
    Std.LawfulEqCmp.compare_eq_iff_eq]
  by_cases hid : c.1 = d.1
  · rw [if_pos hid]
    rw [hid] at hn
    constructor
    · rintro ⟨other, ho, hd⟩
      cases ho
      exact .inl (Prod.ext hid.symm (hd.symm.trans hv))
    · rintro (rfl | ⟨other, ho, -⟩)
      · exact ⟨locked, rfl, hv⟩
      · rw [hn] at ho
        cases ho
  · rw [if_neg hid]
    constructor
    · exact .inr
    · rintro (rfl | h)
      · exact absurd rfl hid
      · exact h

/-- The loop has selected entries of the catalog, and a search has got this far. -/
structure Resolving (catalog : FaiRegistryCatalog) (root : Coordinates) (pending : List Coordinates)
    (selected : BTreeMap String FaiPackageLockEntry) : Prop where
  searching : Searching catalog.Requires root (selection selected) pending
  listed : ∀ id locked, selected[id]? = some locked →
    ∃ entry ∈ catalog.packages, entry.packageId = id ∧ entry.revoked = false ∧
      entry.lockEntry = locked

theorem resolving_start : Resolving catalog root [root] ∅ where
  searching := by
    have hn : selection ∅ = ∅ := by
      ext c
      simp [selection]
    rw [hn]
    exact Searching.start
  listed := by
    intro id locked h
    simp at h

theorem Resolving.skip (h : Resolving catalog root (c :: pend) selected)
    (hs : selected[c.1]? = some locked) (hv : locked.version = c.2) :
    Resolving catalog root pend selected :=
  ⟨h.searching.skip ⟨locked, hs, hv⟩, h.listed⟩

theorem Resolving.select (hu : catalog.Unique) (h : Resolving catalog root (c :: pend) selected)
    (hn : selected[c.1]? = none) (he : catalog.index[c]? = some entry) (hr : entry.revoked = false)
    :
    Resolving catalog root (entry.pushed ++ pend)
      (selected.insert c.1
        { packageId := c.1, version := c.2, digestSha256 := entry.digestSha256,
          signerPublicKeyHex := entry.signerPublicKeyHex }) := by
  obtain ⟨hm, rfl⟩ := (getElem?_index hu).mp he
  refine ⟨?_, ?_⟩
  · rw [selection_insert hn rfl]
    exact h.searching.visit fun d => (requires_iff hu he).symm
  · intro id locked hl
    rw [getElem?_insert] at hl
    split at hl
    case isTrue heq =>
      cases hl
      exact ⟨entry, hm, Std.LawfulEqCmp.eq_of_compare heq, hr, rfl⟩
    case isFalse => exact h.listed id locked hl

/-- A loop that succeeds has finished the search. -/
theorem Resolving.finish (hu : catalog.Unique) (h : Resolving catalog root pend selected)
    (hok : resolvePending catalog.index pend selected = .ok final) :
    Resolving catalog root [] final := by
  induction pend, selected using resolvePending.induct catalog.index with
  | case1 selected =>
    rw [resolvePending] at hok
    cases hok
    exact h
  | case2 id version pend selected locked hs hv =>
    rw [resolvePending_selected hs, if_pos hv] at hok
    cases hok
  | case3 id version pend selected locked hs hv ih =>
    rw [resolvePending_selected hs, if_neg hv] at hok
    exact ih (h.skip hs (not_not.mp hv)) hok
  | case4 id version pend selected hs he =>
    rw [resolvePending_missing hs he] at hok
    cases hok
  | case5 id version pend selected hs entry he hr =>
    rw [resolvePending_listed hs he, if_pos hr] at hok
    cases hok
  | case6 id version pend selected hs entry he hr ih =>
    rw [resolvePending_listed hs he, if_neg hr] at hok
    exact ih (h.select hu hs he (Bool.eq_false_of_not_eq_true hr)) hok

/-- A loop that fails has met something that cannot be locked. -/
theorem Resolving.fail (hu : catalog.Unique) (h : Resolving catalog root pend selected)
    (he : resolvePending catalog.index pend selected = .error error) :
    ¬ catalog.Resolvable root := by
  induction pend, selected using resolvePending.induct catalog.index with
  | case1 selected =>
    rw [resolvePending] at he
    cases he
  | case2 id version pend selected locked hs hv =>
    intro hr
    have hl : catalog.Reaches root (id, locked.version) :=
      h.searching.reached (id, locked.version) (.inl ⟨locked, hs, rfl⟩)
    have hsa := hr.oneVersion _ _ hl h.searching.reaches rfl
    exact hv (congrArg snd hsa)
  | case3 id version pend selected locked hs hv ih =>
    rw [resolvePending_selected hs, if_neg hv] at he
    exact ih (h.skip hs (not_not.mp hv)) he
  | case4 id version pend selected hs hen =>
    intro hr
    obtain ⟨entry, hm, hc⟩ := hr.present _ h.searching.reaches
    have hf := (getElem?_index hu).mpr ⟨hm, hc⟩
    rw [hen] at hf
    cases hf
  | case5 id version pend selected hs entry hen hrv =>
    intro hr
    obtain ⟨hm, hc⟩ := (getElem?_index hu).mp hen
    have hre : catalog.Reaches root (id, version) := h.searching.reaches
    rw [← hc] at hre
    rw [hr.unrevoked entry hm hre] at hrv
    cases hrv
  | case6 id version pend selected hs entry hen hrv ih =>
    rw [resolvePending_listed hs hen, if_neg hrv] at he
    exact ih (h.select hu hs hen (Bool.eq_false_of_not_eq_true hrv)) he

/-! What a finished search has selected. -/

/-- What is selected is what a root reaches. -/
theorem Resolving.getElem?_iff (hu : catalog.Unique) (h : Resolving catalog root [] final)
    {id : String} : final[id]? = some locked ↔
      ∃ entry ∈ catalog.packages, catalog.Reaches root entry.coordinates ∧
        entry.packageId = id ∧ entry.lockEntry = locked := by
  constructor
  · intro hl
    obtain ⟨entry, hm, rfl, -, rfl⟩ := h.listed id locked hl
    exact ⟨entry, hm, h.searching.mem_iff.mp ⟨entry.lockEntry, hl, rfl⟩, rfl, rfl⟩
  · rintro ⟨entry, hm, hr, rfl, rfl⟩
    obtain ⟨locked, hl, hv⟩ := h.searching.mem_iff.mpr hr
    obtain ⟨other, ho, hid, -, rfl⟩ := h.listed _ _ hl
    obtain rfl := List.inj_on_of_nodup_map hu ho hm (Prod.ext hid hv)
    exact hl

theorem Resolving.resolvable (hu : catalog.Unique) (h : Resolving catalog root [] final) :
    catalog.Resolvable root where
  present := by
    intro c hc
    obtain ⟨locked, hl, hv⟩ := h.searching.mem_iff.mpr hc
    obtain ⟨entry, hm, hid, -, rfl⟩ := h.listed _ _ hl
    exact ⟨entry, hm, Prod.ext hid hv⟩
  unrevoked := by
    intro entry hm hr
    obtain ⟨locked, hl, hv⟩ := h.searching.mem_iff.mpr hr
    obtain ⟨other, ho, hid, hre, rfl⟩ := h.listed _ _ hl
    obtain rfl := List.inj_on_of_nodup_map hu ho hm (Prod.ext hid hv)
    exact hre
  oneVersion := by
    intro c d hc hd hid
    obtain ⟨locked, hl, hv⟩ := h.searching.mem_iff.mpr hc
    obtain ⟨other, ho, ho'⟩ := h.searching.mem_iff.mpr hd
    rw [hid, ho] at hl
    cases hl
    exact Prod.ext hid (hv.symm.trans ho')

theorem Resolving.distinct (h : Resolving catalog root [] final) :
    ((final.toList.map snd).map FaiPackageLockEntry.packageId).Nodup := by
  have hk : (final.toList.map snd).map FaiPackageLockEntry.packageId =
      final.toList.map fst := by
    rw [List.map_map]
    refine List.map_congr_left fun entry he => ?_
    obtain ⟨listed, -, hid, -, hl⟩ :=
      h.listed _ _ (mem_toList_iff_getElem?_eq_some.mp he)
    rw [Function.comp_apply, ← hl]
    exact hid
  rw [hk, map_fst_toList_eq_keys]
  exact nodup_keys

/-! The lock. -/

theorem resolveCatalogLock_eq_ok {signed : FaiSignedCatalog} {packageId version : String}
    {lock : FaiPackageLock} : resolveCatalogLock signed packageId version = .ok lock ↔
      ∃ selected, resolvePending signed.catalog.index [(packageId, version)] ∅ = .ok selected ∧
        { version := privateRegistryVersion, registryId := signed.catalog.registryId,
          catalogSequence := signed.catalog.sequence,
          packages := selected.toList.map snd } = lock := by
  simp only [resolveCatalogLock, bind_eq_ok, pure_eq_ok]

theorem Resolving.locks (hu : catalog.Unique) (h : Resolving catalog root [] final) :
    catalog.Locks root
      { version := privateRegistryVersion, registryId := catalog.registryId,
        catalogSequence := catalog.sequence, packages := final.toList.map snd } where
  version := rfl
  registryId := rfl
  catalogSequence := rfl
  distinct := h.distinct
  exact := by
    intro locked
    constructor
    · intro hm
      obtain ⟨⟨id, found⟩, he, rfl⟩ := List.mem_map.mp hm
      obtain ⟨entry, hl, hr, -, hlo⟩ := (h.getElem?_iff hu).mp
        (mem_toList_iff_getElem?_eq_some.mp he)
      exact ⟨entry, hl, hr, hlo⟩
    · rintro ⟨entry, hl, hr, rfl⟩
      exact mem_values_of_getElem? ((h.getElem?_iff hu).mpr ⟨entry, hl, hr, rfl, rfl⟩)

/-! Another order of the dependencies. -/

namespace FaiRegistryCatalog.Reordered

theorem symm (h : Reordered catalog other) : Reordered other catalog where
  registryId := h.registryId.symm
  sequence := h.sequence.symm
  packages := h.packages.flip.imp fun _ _ he => he.symm

theorem exists_entry (h : Reordered catalog other) (he : entry ∈ catalog.packages) :
    ∃ entry' ∈ other.packages, entry.Reordered entry' := by
  obtain ⟨n, hn, rfl⟩ := List.mem_iff_getElem.mp he
  have hn' : n < other.packages.length := h.packages.length_eq ▸ hn
  exact ⟨other.packages[n], List.getElem_mem hn', h.packages.get hn hn'⟩

theorem unique (h : Reordered catalog other) (hu : catalog.Unique) : other.Unique := by
  have hm : other.packages.map FaiListedEntry.coordinates =
      catalog.packages.map FaiListedEntry.coordinates := by
    refine List.ext_getElem ?_ fun n hn hn' => ?_
    · simpa using h.packages.length_eq.symm
    · rw [List.length_map] at hn hn'
      rw [List.getElem_map, List.getElem_map]
      exact (h.packages.get hn' hn).coordinates
  rw [Unique, hm]
  exact hu

theorem requires (h : Reordered catalog other) (hr : catalog.Requires c d) :
    other.Requires c d := by
  obtain ⟨entry, he, hc, hd⟩ := hr
  obtain ⟨entry', he', hs⟩ := h.exists_entry he
  exact ⟨entry', he', hs.coordinates.trans hc, (hs.dependencies.map _).subset hd⟩

theorem reaches (h : Reordered catalog other) (hr : catalog.Reaches root c) :
    other.Reaches root c :=
  hr.lift id fun _ _ hre => h.requires hre

theorem resolvable (h : Reordered catalog other) (hok : catalog.Resolvable root) :
    other.Resolvable root where
  present := by
    intro c hc
    obtain ⟨entry, he, rfl⟩ := hok.present c (h.symm.reaches hc)
    obtain ⟨entry', he', hs⟩ := h.exists_entry he
    exact ⟨entry', he', hs.coordinates⟩
  unrevoked := by
    intro entry' he' hr
    obtain ⟨entry, he, hs⟩ := h.symm.exists_entry he'
    rw [← hs.revoked]
    apply hok.unrevoked entry he
    rw [hs.coordinates]
    exact h.symm.reaches hr
  oneVersion := fun c d hc hd => hok.oneVersion c d (h.symm.reaches hc) (h.symm.reaches hd)

/-- A finished search selects the same in both. -/
theorem getElem?_final (h : Reordered catalog other) (hu : catalog.Unique)
    {final final' : BTreeMap String FaiPackageLockEntry} (hf : Resolving catalog root [] final)
    (hf' : Resolving other root [] final') {id : String} (hl : final[id]? = some locked) :
    final'[id]? = some locked := by
  obtain ⟨entry, he, hr, hid, hlo⟩ := (hf.getElem?_iff hu).mp hl
  obtain ⟨entry', he', hs⟩ := h.exists_entry he
  refine (hf'.getElem?_iff (h.unique hu)).mpr ⟨entry', he', ?_, ?_, hs.lockEntry.trans hlo⟩
  · rw [hs.coordinates]
    exact h.reaches hr
  · exact (congrArg fst hs.coordinates).trans hid

theorem lock {signed signed' : FaiSignedCatalog} {packageId version : String}
    {lock : FaiPackageLock} (h : Reordered signed.catalog signed'.catalog)
    (hu : signed.catalog.Unique)
    (hl : resolveCatalogLock signed packageId version = .ok lock) :
    resolveCatalogLock signed' packageId version = .ok lock := by
  obtain ⟨final, hf, rfl⟩ := (resolveCatalogLock_eq_ok).mp hl
  have hr := (resolving_start).finish hu hf
  cases hf' : resolvePending signed'.catalog.index [(packageId, version)] ∅ with
  | error error =>
    exact absurd (h.resolvable (hr.resolvable hu)) ((resolving_start).fail (h.unique hu) hf')
  | ok final' =>
    have hr' := (resolving_start).finish (h.unique hu) hf'
    have hs : final' = final := by
      refine ext_getElem? fun id => Option.ext fun locked => ⟨?_, ?_⟩
      · exact h.symm.getElem?_final (h.unique hu) hr' hr
      · exact h.getElem?_final hu hr hr'
    refine (resolveCatalogLock_eq_ok).mpr ⟨final', hf', ?_⟩
    rw [hs, h.registryId, h.sequence]

end FaiRegistryCatalog.Reordered

/-- A lock exists exactly when all that the root needs can be locked; it then holds just that,
whatever the order of the dependencies. -/
theorem catalog_lock_exact (signed : FaiSignedCatalog) (packageId version : String)
    (hunique : signed.catalog.Unique) :
    ((∃ lock, resolveCatalogLock signed packageId version = .ok lock) ↔
        signed.catalog.Resolvable (packageId, version)) ∧
      (∀ lock, resolveCatalogLock signed packageId version = .ok lock →
        signed.catalog.Locks (packageId, version) lock) ∧
      ∀ signed' : FaiSignedCatalog, Reordered signed.catalog signed'.catalog → ∀ lock,
        resolveCatalogLock signed' packageId version = .ok lock ↔
          resolveCatalogLock signed packageId version = .ok lock := by
  refine ⟨⟨?_, ?_⟩, ?_, ?_⟩
  · rintro ⟨lock, hl⟩
    obtain ⟨final, hf, -⟩ := (resolveCatalogLock_eq_ok).mp hl
    exact ((resolving_start).finish hunique hf).resolvable hunique
  · intro hr
    cases hf : resolvePending signed.catalog.index [(packageId, version)] ∅ with
    | error error => exact absurd hr ((resolving_start).fail hunique hf)
    | ok final => exact ⟨_, (resolveCatalogLock_eq_ok).mpr ⟨final, hf, rfl⟩⟩
  · intro lock hl
    obtain ⟨final, hf, rfl⟩ := (resolveCatalogLock_eq_ok).mp hl
    exact ((resolving_start).finish hunique hf).locks hunique
  · intro signed' h lock
    exact ⟨h.symm.lock (h.unique hunique), h.lock hunique⟩

def exampleEntry (packageId version : String) (dependencies : List FaiPackageDependency) :
    FaiListedEntry :=
  { packageId, version, dependencies, authority := ⟨[], [], [], [], 0, 0, 0, 0⟩, name := packageId,
    digestSha256 := packageId, signerId := "alice", signerPublicKeyHex := "key", revoked := false,
    revocationReason := none }

/-- Two packages that need each other. -/
def cyclicCatalog : FaiSignedCatalog where
  catalog :=
    { version := 1, registryId := "engineering", sequence := 3, generatedAtUnix := 0,
      packages := [exampleEntry "base" "1" [⟨"extra", "1"⟩],
        exampleEntry "extra" "1" [⟨"base", "1"⟩]] }
  signingPublicKeyHex := ""
  signatureHex := ""

theorem catalog_lock_exact_sample :
    cyclicCatalog.catalog.Unique ∧
      ((∃ lock, resolveCatalogLock cyclicCatalog "base" "1" = .ok lock) ↔
        cyclicCatalog.catalog.Resolvable ("base", "1")) :=
  ⟨by decide, (catalog_lock_exact cyclicCatalog "base" "1" (by decide)).1⟩

end FocalDesk
