import FocalDesk.Memory.Session

/-! Which memories the catalog names for a document. -/
namespace FocalDesk.Memory
open Library List MemoryStore

variable {kept : List (String × List MemoryId)} {world next : World} {db db' : MemoryDb}
  {back : VectorBackend} {sto : MemoryStore} {new : List MemoryId} {pol : MemoryPolicy}

/-- The entries are as they were, and an id that exists did so before or is new. -/
structure KeepsCatalog (db : MemoryDb) (new : List MemoryId) (db' : MemoryDb) : Prop where
  documents : db'.indexedDocuments = db.indexedDocuments
  ids : ∀ id ∈ db'.allIds, id ∈ db.allIds ∨ id ∈ new

theorem KeepsCatalog.refl (db : MemoryDb) (new : List MemoryId) : KeepsCatalog db new db :=
  ⟨rfl, fun _ hid => .inl hid⟩

theorem KeepsCatalog.deleteIds (h : KeepsCatalog db new db') (ids : List MemoryId) :
    KeepsCatalog db new (db'.deleteIds ids) :=
  ⟨h.documents, fun id hid => h.ids id (mem_allIds_filter hid)⟩

theorem KeepsCatalog.deleteIdsForBackend (h : KeepsCatalog db new db') (ids : List MemoryId) :
    ∀ back, KeepsCatalog db new (db'.deleteIdsForBackend ids back)
  | .sqliteVec => h.deleteIds ids
  | .focalVector _ => ⟨h.documents, fun id hid => h.ids id (mem_allIds_filter hid)⟩

theorem KeepsCatalog.pruneLocked (h : KeepsCatalog db new db') (pol : MemoryPolicy) (now : ℤ) :
    KeepsCatalog db new (db'.pruneLocked pol now true) :=
  (h.deleteIds _).deleteIds _

/-- The sidecar is all that a deletion there changes. -/
theorem deleteFromBackend_db (served : Bool) (back : VectorBackend) (ids : List MemoryId)
    (world : World) : Ends (fun next => next.db = world.db) (fun next => next.db = world.db)
      (deleteFromBackend served back ids world) := by
  unfold deleteFromBackend
  cases back with
  | sqliteVec => exact rfl
  | focalVector coll =>
    dsimp only
    split
    · exact rfl
    · split
      · exact rfl
      · exact rfl

theorem KeepsCatalog.prune (h : KeepsCatalog db new world.db) (served : Bool) (pol : MemoryPolicy)
    (now : ℤ) (back : VectorBackend) :
    Ends (fun next => KeepsCatalog db new next.db) (fun next => KeepsCatalog db new next.db)
      (pruneBackendLocked served pol now back world) := by
  cases back with
  | sqliteVec => exact h.pruneLocked pol now
  | focalVector coll =>
    have hd : Ends (fun next => next.db = world.db)
        (fun next => KeepsCatalog db new next.db)
        (deleteFromBackend served (.focalVector coll)
          (expiredAndExcessIds pol now world.db) world) :=
      (deleteFromBackend_db _ _ _ _).mono (fun _ hdb => hdb) fun _ hdb => hdb ▸ h
    refine hd.bind fun next hdb => ?_
    have hn : KeepsCatalog db new next.db := hdb ▸ h
    exact hn.deleteIdsForBackend _ (.focalVector coll)

theorem KeepsCatalog.syncRounds (coll : String) (fuel : ℕ) (h : KeepsCatalog db new world.db) :
    KeepsCatalog db new (syncRounds coll fuel world).db := by
  induction fuel generalizing world with
  | zero => exact h
  | succ fuel ih =>
    unfold Memory.syncRounds
    dsimp only
    split
    · exact h
    · exact ih ⟨h.documents, h.ids⟩

theorem KeepsCatalog.sync (h : KeepsCatalog db new world.db) (served : Bool) (back : VectorBackend)
    :
    Ends (fun next => KeepsCatalog db new next.db) (fun next => KeepsCatalog db new next.db)
      (syncPendingEmbeddings served back world) := by
  unfold syncPendingEmbeddings
  cases back with
  | sqliteVec => exact h
  | focalVector coll =>
    dsimp only
    split
    · exact h
    · split
      · exact h.syncRounds coll _
      · exact h

theorem keepsCatalog_insertMemory {now : ℤ} {text : String} {emb : Embedding}
    {metadata : Value} (h : sto.insertMemory now text emb metadata db = some db') :
    KeepsCatalog db [db.nextRowid] db' := by
  have ha : ∀ row : MemoryRow, row.id = db.nextRowid →
      ∀ id ∈ (db.memories ++ [row]).map MemoryRow.id, id ∈ db.allIds ∨ id ∈ [db.nextRowid] := by
    intro row hr id hid
    rw [map_append, mem_append] at hid
    exact hid.imp_right fun hn => by simpa [hr] using hn
  unfold insertMemory at h
  dsimp only at h
  split at h
  · split at h
    · cases h
      exact ⟨rfl, ha _ rfl⟩
    · cases h
  · split at h
    · cases h
      exact ⟨rfl, ha _ rfl⟩
    · cases h

theorem keepsCatalog_remember (served : Bool) (now : ℤ) (text : String) (emb : Embedding)
    (metadata : Value) (world : World) : KeepsCatalog world.db [world.db.nextRowid]
      (sto.perform world (.remember served now text emb metadata)).db := by
  simp only [perform, remember]
  split
  · exact .refl _ _
  · rcases hi : sto.insertMemory now text emb metadata world.db with _ | db
    · exact .refl _ _
    · dsimp only
      rw [left_map_fst]
      let next : World := { world with db }
      have hn : KeepsCatalog world.db [world.db.nextRowid] next.db := keepsCatalog_insertMemory hi
      have hs := hn.sync served sto.vectorBackend
      exact (hs.bind fun next hn =>
        hn.prune served sto.policy now sto.vectorBackend).left

theorem keepsCatalog_initSchema {dimension : ℕ} (h : initSchema dimension pol db = .ok db') :
    KeepsCatalog db [] db' := by
  unfold initSchema at h
  dsimp only at h
  split at h
  · cases h
  · cases h
    refine ⟨rfl, fun id hid => .inl ?_⟩
    simp only [MemoryDb.allIds, map_map] at hid
    exact hid

theorem keepsCatalog_openWithPolicy (now : ℤ) (dimension : ℕ) (pol : MemoryPolicy) (world : World)
    : KeepsCatalog world.db [] (left ((openWithPolicy now dimension pol world).map Prod.fst)).db
      := by
  unfold openWithPolicy
  split
  · exact .refl _ _
  · rcases hin : initSchema dimension pol world.db with err | db
    · exact .refl _ _
    · have hi : KeepsCatalog world.db [] (importFocalEmbeddingsToSqlite db) :=
        ⟨(keepsCatalog_initSchema hin).documents, (keepsCatalog_initSchema hin).ids⟩
      exact hi.pruneLocked pol now

theorem KeepsCatalog.openCollection (h : KeepsCatalog db new world.db) (dimension : ℕ)
    (coll : String) :
    Ends (fun next => KeepsCatalog db new next.db) (fun next => KeepsCatalog db new next.db)
      (openCollection dimension coll world) := by
  have hs : KeepsCatalog db new (world.db.setIndexed fun _ _ => false) := ⟨h.documents, h.ids⟩
  unfold Memory.openCollection
  dsimp only
  split
  · split
    · exact h
    · split
      · exact hs
      · exact h
  · exact hs

theorem keepsCatalog_openFocalVectorWithPolicy (served : Bool) (now : ℤ) (dimension : ℕ)
    (pol : MemoryPolicy) (coll : Option String) (world : World) :
    KeepsCatalog world.db [] (left ((openFocalVectorWithPolicy served now dimension pol
      coll world).map Prod.fst)).db := by
  unfold openFocalVectorWithPolicy
  split
  · exact .refl _ _
  · rcases hin : initSchema dimension pol world.db with err | db
    · exact .refl _ _
    · have hk := keepsCatalog_initSchema hin
      dsimp only
      split
      · exact hk
      · rw [left_map_fst]
        let prep : World := { world with db }
        have hp : KeepsCatalog world.db [] prep.db := hk
        have ho := hp.openCollection dimension (coll.getD focalVectorCollection)
        refine Ends.left (P := fun next => KeepsCatalog world.db [] next.db) ?_
        refine ho.bind fun next hn => ?_
        let imported : World := { next with db := importLegacyEmbeddings next.db }
        have hi : KeepsCatalog world.db [] imported.db := ⟨hn.documents, hn.ids⟩
        exact (hi.sync served _).bind fun next hn => hn.prune served pol now _

/-! What is kept of the documents. -/

/-- Each source has one entry, and of its ids those that exist are the ones that are kept. -/
structure Catalogued (kept : List (String × List MemoryId)) (db : MemoryDb) : Prop where
  sources : (db.indexedDocuments.map Prod.fst).Nodup
  named : ∀ entry ∈ db.indexedDocuments, entry.2.source = entry.1
  listed : ∀ source document, getKey source db.indexedDocuments = some document →
    getKey source kept = some (document.memoryIds.filter fun id => id ∈ db.allIds)
  gone : ∀ source, getKey source db.indexedDocuments = none → (getKey source kept).getD [] = []

theorem getKey_keepLive (db : MemoryDb) (kept : List (String × List MemoryId)) (src : String) :
    getKey src (Session.keepLive db kept) =
      (getKey src kept).map fun ids => ids.filter fun id => id ∈ db.allIds :=
  getKey_map _ src kept

theorem getD_keepLive {src : String} (db : MemoryDb) (h : (getKey src kept).getD [] = []) :
    (getKey src (Session.keepLive db kept)).getD [] = [] := by
  rw [getKey_keepLive]
  rcases hg : getKey src kept with _ | ids
  · rfl
  · obtain rfl : ids = [] := by simpa [hg] using h
    rfl

theorem Catalogued.keepsCatalog (h : Catalogued kept db) (hk : KeepsCatalog db new db')
    (hn : ∀ id ∈ new, ∀ e ∈ db.indexedDocuments, id ∉ e.2.memoryIds) :
    Catalogued (Session.keepLive db' kept) db' where
  sources := hk.documents ▸ h.sources
  named := hk.documents ▸ h.named
  listed src document hget := by
    rw [hk.documents] at hget
    rw [getKey_keepLive, h.listed src document hget, Option.map_some, filter_filter]
    refine congrArg some (filter_congr fun id hid => ?_)
    by_cases hl : id ∈ db'.allIds
    · have hp : id ∈ db.allIds := (hk.ids id hl).resolve_right fun hm =>
        hn id hm _ (mem_of_getKey hget) hid
      simp [hl, hp]
    · simp [hl]
  gone src hget := by
    rw [hk.documents] at hget
    exact getD_keepLive db' (h.gone src hget)

theorem Catalogued.narrows (h : Catalogued kept db) (hk : KeepsCatalog db [] db') :
    Catalogued (Session.keepLive db' kept) db' :=
  h.keepsCatalog hk (by simp)

theorem reconcile_eq_some {ids : List MemoryId} {document after : IndexedDocument}
    (h : document.reconcile ids = some after) :
    after.source = document.source ∧
      after.memoryIds = document.memoryIds.filter fun id => id ∈ ids := by
  unfold IndexedDocument.reconcile at h
  dsimp only at h
  split at h
  · rename_i hs
    cases h
    exact ⟨rfl, hs.symm⟩
  · split at h
    · cases h
    · cases h
      exact ⟨rfl, rfl⟩

theorem reconcile_eq_none {ids : List MemoryId} {document : IndexedDocument}
    (h : document.reconcile ids = none) :
    (document.memoryIds.filter fun id => id ∈ ids) = [] := by
  unfold IndexedDocument.reconcile at h
  dsimp only at h
  split at h
  · cases h
  · split at h
    · rename_i he
      exact List.isEmpty_iff.mp he
    · cases h

/-- What an entry says after the reconciliation. -/
theorem Catalogued.reconciled (h : Catalogued kept db) {src : String}
    {document : IndexedDocument}
    (hg : getKey src (reconcileDocumentsLocked db).indexedDocuments = some document) :
    getKey src kept = some document.memoryIds ∧
      (document.memoryIds.filter fun id => id ∈ db.allIds) = document.memoryIds := by
  unfold reconcileDocumentsLocked at hg
  rw [getKey_filterMap _ src h.sources] at hg
  obtain ⟨pre, hp, hr⟩ := Option.bind_eq_some_iff.mp hg
  have hi := (reconcile_eq_some hr).2
  refine ⟨hi ▸ h.listed src pre hp, ?_⟩
  rw [hi, filter_filter]
  simp

theorem Catalogued.reconcile (h : Catalogued kept db) :
    Catalogued kept (reconcileDocumentsLocked db) where
  sources := nodup_keys_filterMap _ h.sources
  named entry hentry := by
    obtain ⟨pre, hp, hr⟩ := mem_filterMap.mp hentry
    obtain ⟨document, hd, rfl⟩ := Option.map_eq_some_iff.mp hr
    exact (reconcile_eq_some hd).1.trans (h.named pre hp)
  listed src document hget := by
    obtain ⟨hk, hl⟩ := h.reconciled hget
    exact hk.trans (congrArg some hl.symm)
  gone src hget := by
    unfold reconcileDocumentsLocked at hget
    rw [getKey_filterMap _ src h.sources] at hget
    rcases hp : getKey src db.indexedDocuments with _ | pre
    · exact h.gone src hp
    · rw [hp] at hget
      rw [h.listed src pre hp, reconcile_eq_none hget]
      rfl

theorem Catalogued.saveDocument (h : Catalogued kept db) (document : IndexedDocument) :
    Catalogued (Session.keepLive db (putKey document.source document.memoryIds kept))
      (saveDocument document db) where
  sources := nodup_keys_putKey h.sources
  named entry he := by
    obtain he | he := mem_append.mp he
    · exact h.named entry (mem_filter.mp he).1
    · obtain rfl := mem_singleton.mp he
      rfl
  listed src found hget := by
    unfold Memory.saveDocument at hget
    rw [getKey_keepLive]
    by_cases hs : src = document.source
    · subst hs
      rw [getKey_putKey_self] at hget ⊢
      cases hget
      rfl
    · rw [getKey_putKey_of_ne hs] at hget ⊢
      rw [h.listed src found hget, Option.map_some, filter_filter]
      simp only [Bool.and_self]
      rfl
  gone src hget := by
    unfold Memory.saveDocument at hget
    by_cases hs : src = document.source
    · subst hs
      rw [getKey_putKey_self] at hget
      cases hget
    · rw [getKey_putKey_of_ne hs] at hget
      refine getD_keepLive db ?_
      rw [getKey_putKey_of_ne hs]
      exact h.gone src hget

theorem Catalogued.deleteDocument (h : Catalogued kept db) (src : String) :
    Catalogued (Session.keepLive db (removeKey src kept)) (deleteDocument src db) where
  sources := h.sources.sublist (filter_sublist.map _)
  named entry hentry := h.named entry (mem_filter.mp hentry).1
  listed other found hget := by
    unfold Memory.deleteDocument at hget
    rw [getKey_keepLive]
    by_cases hs : other = src
    · subst hs
      rw [getKey_removeKey_self] at hget
      cases hget
    · rw [getKey_removeKey_of_ne hs] at hget ⊢
      rw [h.listed other found hget, Option.map_some, filter_filter]
      simp only [Bool.and_self]
      rfl
  gone other hget := by
    unfold Memory.deleteDocument at hget
    refine getD_keepLive db ?_
    by_cases hs : other = src
    · subst hs
      rw [getKey_removeKey_self]
      rfl
    · rw [getKey_removeKey_of_ne hs] at hget ⊢
      exact h.gone other hget

/-! Runs. -/

/-- The condition on a step: the catalog does not name the id of a new memory. -/
def Session.NamesNoNew (session : Session) : MemoryEvent → Prop
  | .call (.remember _ _ _ _ _) => ∀ entry ∈ session.world.db.indexedDocuments,
    session.world.db.nextRowid ∉ entry.2.memoryIds
  | _ => True

theorem catalogued_forget (h : Catalogued kept world.db) (served : Bool) (id : MemoryId) :
    Catalogued (Session.keepLive (sto.perform world (.forget served id)).db kept)
      (sto.perform world (.forget served id)).db := by
  simp only [perform, forget]
  have hd := deleteFromBackend_db served sto.vectorBackend [id] world
  rcases ho : deleteFromBackend served sto.vectorBackend [id] world with err | next
  · rw [ho] at hd
    have hs : err.1.db = world.db := hd
    have hke := h.narrows (.refl _ _)
    exact hs ▸ hke
  · rw [ho] at hd
    have hs : next.db = world.db := hd
    have hk := (KeepsCatalog.refl world.db []).deleteIdsForBackend [id] sto.vectorBackend
    rw [← hs] at hk
    exact ((hs ▸ h : Catalogued kept next.db).narrows hk).reconcile

theorem catalogued_clear (h : Catalogued kept world.db) (served : Bool) :
    Catalogued (Session.keepLive (sto.perform world (.clear served)).db kept)
      (sto.perform world (.clear served)).db := by
  simp only [perform, clear]
  have hd := deleteFromBackend_db served sto.vectorBackend world.db.allIds world
  rcases ho : deleteFromBackend served sto.vectorBackend world.db.allIds world with
    error | next
  · rw [ho] at hd
    have hs : error.1.db = world.db := hd
    have hk := h.narrows (.refl _ _)
    exact hs ▸ hk
  · refine ⟨nodup_nil, by simp [Except.map, left], ?_, fun src _ => ?_⟩
    · intro src document hg
      cases hg
    · rw [getKey_keepLive]
      rcases getKey src kept with _ | ids
      · rfl
      · simp [Except.map, left, MemoryDb.allIds]

def Session.Catalogued (session : Session) : Prop :=
  Memory.Catalogued session.kept session.world.db

theorem catalogued_call {sess after : Session} {call : MemoryCall} (h : sess.Catalogued)
    (hst : sess.step (.call call) = some after) (hn : sess.NamesNoNew (.call call)) :
    after.Catalogued := by
  rcases hso : sess.store with _ | sto
  · simp [Session.step, hso] at hst
  · simp only [Session.step, hso, Option.map_some, Option.some.injEq] at hst
    subst hst
    have hs := KeepsCatalog.refl sess.world.db []
    cases call with
    | remember served now text emb metadata =>
      refine h.keepsCatalog (keepsCatalog_remember served now text emb metadata _) ?_
      intro id hid e he
      obtain rfl := mem_singleton.mp hid
      exact hn e he
    | «recall» served now queryEmbedding =>
      refine h.narrows ?_
      simp only [perform, MemoryStore.recall]
      split
      · exact hs
      · exact ((hs.prune served sto.policy now sto.vectorBackend).bind fun next hne =>
          hne.sync served sto.vectorBackend).left
    | status served now =>
      exact h.narrows (hs.prune served sto.policy now sto.vectorBackend).left
    | forget served id => exact catalogued_forget h served id
    | clear served => exact catalogued_clear h served
    | saveDocument document => exact h.saveDocument document
    | document src => exact (h.narrows hs).reconcile
    | documents => exact (h.narrows hs).reconcile
    | deleteDocument src => exact h.deleteDocument src

theorem catalogued_step {sess after : Session} {ev : MemoryEvent}
    (hs : sess.step ev = some after) (hn : sess.NamesNoNew ev)
    (h : sess.Catalogued) : after.Catalogued := by
  cases ev with
  | call call => exact catalogued_call h hs hn
  | openWithPolicy now dimension pol =>
    cases hs
    exact h.narrows (keepsCatalog_openWithPolicy now dimension pol sess.world)
  | openFocalVectorWithPolicy served now dimension pol coll =>
    cases hs
    exact h.narrows (keepsCatalog_openFocalVectorWithPolicy served now dimension pol
      coll sess.world)

theorem catalogued_start (sidecar : String → Option Collection) :
    (Session.start sidecar).Catalogued := by
  refine ⟨nodup_nil, by simp [Session.start, MemoryDb.empty], ?_, fun _ _ => rfl⟩
  intro src document hg
  cases hg

/-- Asked for a document or for all of them, the catalog names the ids that are kept of each. A
document that it does not have has none. -/
def NamesOwn (kept : List (String × List MemoryId)) (db : MemoryDb) : Prop :=
  (∀ source found, (document source db).2 = some found →
      getKey source kept = some found.memoryIds) ∧
    (∀ source, (document source db).2 = none → (getKey source kept).getD [] = []) ∧
      ∀ found ∈ (documents db).2, getKey found.source kept = some found.memoryIds

theorem Catalogued.namesOwn (h : Catalogued kept db) : NamesOwn kept db := by
  refine ⟨fun src found hf => (h.reconciled hf).1,
    fun src hn => h.reconcile.gone src hn, fun found hf => ?_⟩
  obtain ⟨e, he, rfl⟩ := mem_map.mp ((perm_insertionSort _ _).mem_iff.mp hf)
  rw [h.reconcile.named e he]
  exact (h.reconciled (getKey_of_mem h.reconcile.sources he)).1

/-- In every run that meets the condition, the catalog names for a document those memories that it
was saved with and that have existed ever since. -/
theorem catalog_names_own (sidecar : String → Option Collection) (events : List MemoryEvent)
    (final : Session)
    (hnames : Meets Session.step Session.NamesNoNew (Session.start sidecar) events)
    (hrun : run Session.step (Session.start sidecar) events = some final) :
    NamesOwn final.kept final.world.db :=
  have hf : final.Catalogued :=
    run_invariant_of_meets catalogued_step hnames hrun (catalogued_start sidecar)
  Catalogued.namesOwn hf

def lastingDocument : IndexedDocument := ⟨"a.txt", "A", "text/plain", "h", 0, 0, 1, [1]⟩

/-- A document and its memory, which is forgotten. -/
def forgotten : List MemoryEvent :=
  [.openWithPolicy 0 1 ⟨none, none⟩, .call (.remember true 0 "first" [1] .null),
    .call (.saveDocument lastingDocument), .call (.forget true 1),
    .call (.remember true 0 "second" [2] .null)]

theorem namesNoNew_forgotten :
    Meets Session.step Session.NamesNoNew (Session.start fun _ => none) forgotten := by
  refine ⟨trivial, fun s hs => ⟨?_, fun s' hs' => ⟨trivial, fun s'' hs'' => ⟨trivial,
    fun t ht => ⟨?_, fun _ _ => trivial⟩⟩⟩⟩⟩
  · cases hs
    intro e he
    cases he
  · cases hs
    cases hs'
    cases hs''
    cases ht
    intro e he
    cases he

theorem catalog_names_own_sample : ∃ final : Session,
    final.world.db.allIds = [1] ∧ (document "a.txt" final.world.db).2 = none ∧
      NamesOwn final.kept final.world.db :=
  ⟨_, rfl, rfl, catalog_names_own (fun _ => none) forgotten _ namesNoNew_forgotten rfl⟩

/-- A document whose memory expires, after which another one has the id. -/
def expired : List MemoryEvent :=
  [.openWithPolicy 0 1 ⟨some 10, none⟩, .call (.remember true 0 "first" [1] .null),
    .call (.saveDocument lastingDocument), .call (.status true 20),
    .call (.remember true 20 "second" [2] .null)]

theorem run_expired : ∃ final : Session,
    run Session.step (Session.start fun _ => none) expired = some final ∧
      (document "a.txt" final.world.db).2 = some lastingDocument ∧
        getKey "a.txt" final.kept = some [] :=
  ⟨_, rfl, rfl, rfl⟩

theorem catalog_names_another : ¬ ∀ (sidecar : String → Option Collection)
    (events : List MemoryEvent) (final : Session),
    run Session.step (Session.start sidecar) events = some final →
      NamesOwn final.kept final.world.db := by
  intro h
  obtain ⟨final, hr, hf, hk⟩ := run_expired
  have hn := (h _ expired final hr).1 "a.txt" lastingDocument hf
  rw [hk] at hn
  cases hn

end FocalDesk.Memory
