import FocalDesk.Memory.Session

/-! Whether a memory keeps the embedding that it was created with. -/
namespace FocalDesk.Memory
open Library List MemoryDb MemoryStore

variable {given : List (MemoryId × Embedding)} {world next : World} {db db' : MemoryDb}
  {back : VectorBackend} {store : MemoryStore} {coll : String} {existing old : Collection}
  {id : MemoryId} {ids : List MemoryId} {served : Bool} {now : ℤ} {pol : MemoryPolicy}

/-- The tables have no other embedding of a memory than the one that it was given, and one of them
has it. -/
structure Agrees (given : List (MemoryId × Embedding)) (db : MemoryDb) : Prop where
  vectors : ∀ id ∈ db.allIds, ∀ embedding, getKey id db.memoryVectors = some embedding →
    getKey id given = some embedding
  embeddings : ∀ id ∈ db.allIds, ∀ stored, getKey id db.memoryEmbeddings = some stored →
    getKey id given = some stored.embedding
  stored : ∀ id ∈ db.allIds,
    getKey id db.memoryVectors ≠ none ∨ getKey id db.memoryEmbeddings ≠ none

/-- An embedding that counts as indexed is the one of its point. -/
def Indexed (db : MemoryDb) (existing : Collection) : Prop :=
  ∀ id ∈ db.allIds, ∀ stored, getKey id db.memoryEmbeddings = some stored →
    stored.indexed = true → (getKey id existing.points).map Point.vector = some stored.embedding

/-- The active table has every memory, and the points are those of the table. -/
def Serves (world : World) : VectorBackend → Prop
  | .sqliteVec => ∀ id ∈ world.db.allIds, getKey id world.db.memoryVectors ≠ none
  | .focalVector collection =>
    (∀ id ∈ world.db.allIds, getKey id world.db.memoryEmbeddings ≠ none) ∧
      ∃ existing, world.sidecar collection = some existing ∧ Indexed world.db existing

structure Sound (given : List (MemoryId × Embedding)) (backend : VectorBackend) (world : World) :
    Prop where
  agrees : Agrees given world.db
  serves : Serves world backend

/-! Memories go. -/

/-- The memories were there before, with the same embeddings. -/
structure Restricts (db' db : MemoryDb) : Prop where
  ids : ∀ id ∈ db'.allIds, id ∈ db.allIds
  vectors : ∀ id ∈ db'.allIds, getKey id db'.memoryVectors = getKey id db.memoryVectors
  embeddings : ∀ id ∈ db'.allIds, getKey id db'.memoryEmbeddings = getKey id db.memoryEmbeddings

theorem Restricts.trans {db'' : MemoryDb} (h : Restricts db'' db') (h' : Restricts db' db) :
    Restricts db'' db where
  ids id hid := h'.ids id (h.ids id hid)
  vectors id hid := (h.vectors id hid).trans (h'.vectors id (h.ids id hid))
  embeddings id hid := (h.embeddings id hid).trans (h'.embeddings id (h.ids id hid))

theorem Agrees.restricts (h : Agrees given db) (hr : Restricts db' db) : Agrees given db' where
  vectors id hid emb hget := h.vectors id (hr.ids id hid) emb (hr.vectors id hid ▸ hget)
  embeddings id hid stored hget :=
    h.embeddings id (hr.ids id hid) stored (hr.embeddings id hid ▸ hget)
  stored id hid := by
    rw [hr.vectors id hid, hr.embeddings id hid]
    exact h.stored id (hr.ids id hid)

theorem Indexed.restricts {existing' : Collection} (h : Indexed db old) (hr : Restricts db' db)
    (hp : ∀ id ∈ db'.allIds, getKey id existing'.points = getKey id old.points) :
    Indexed db' existing' := by
  intro id hid stored hg hi
  rw [hp id hid]
  exact h id (hr.ids id hid) stored (hr.embeddings id hid ▸ hg) hi

theorem restricts_deleteIds (db : MemoryDb) (ids : List MemoryId) :
    Restricts (db.deleteIds ids) db where
  ids _ hid := mem_allIds_filter hid
  vectors _ hid := getKey_filter_of_forall fun _ => decide_eq_true (not_mem_of_mem_filter hid)
  embeddings _ _ := rfl

theorem restricts_deleteMetadataIds (db : MemoryDb) (ids : List MemoryId) :
    Restricts (db.deleteMetadataIds ids) db where
  ids _ hid := mem_allIds_filter hid
  vectors _ _ := rfl
  embeddings _ hid := getKey_filter_of_forall fun _ => decide_eq_true (not_mem_of_mem_filter hid)

theorem restricts_deleteIdsForBackend (db : MemoryDb) (ids : List MemoryId) :
    ∀ back, Restricts (db.deleteIdsForBackend ids back) db
  | .sqliteVec => restricts_deleteIds db ids
  | .focalVector _ => restricts_deleteMetadataIds db ids

theorem not_mem_deleteIdsForBackend (h : id ∈ (db.deleteIdsForBackend ids back).allIds)
    : id ∉ ids := by
  cases back with
  | sqliteVec => exact not_mem_of_mem_filter h
  | focalVector coll => exact not_mem_of_mem_filter h

theorem restricts_pruneLocked (pol : MemoryPolicy) (now : ℤ) (db : MemoryDb) :
    Restricts (db.pruneLocked pol now true) db :=
  (restricts_deleteIds _ _).trans (restricts_deleteIds _ _)

theorem allIds_initSchema {dimension : ℕ} (h : initSchema dimension pol db = .ok db') :
    db'.allIds = db.allIds := by
  unfold initSchema at h
  dsimp only at h
  split at h
  · cases h
  · cases h
    simp only [allIds, map_map]
    rfl

theorem restricts_initSchema {dimension : ℕ} (h : initSchema dimension pol db = .ok db') :
    Restricts db' db := by
  have hi := allIds_initSchema h
  unfold initSchema at h
  dsimp only at h
  split at h
  · cases h
  · cases h
    refine ⟨fun id hid => hi ▸ hid, fun id hid => ?_, fun id hid => ?_⟩
    · exact getKey_filter_of_forall fun _ => decide_eq_true (hi ▸ hid)
    · exact getKey_filter_of_forall fun _ => decide_eq_true (hi ▸ hid)

/-- The sidecar deletes the points of some ids and leaves the others, or it is not reached. -/
theorem deleteFromBackend_cases (served : Bool) (back : VectorBackend) (ids : List MemoryId)
    (world : World) :
    (∃ err, deleteFromBackend served back ids world = .error (world, err)) ∨
      ∃ next, deleteFromBackend served back ids world = .ok next ∧ next.db = world.db ∧
        ∀ coll old, world.sidecar coll = some old →
          ∃ existing', next.sidecar coll = some existing' ∧
            ∀ id, id ∉ ids → getKey id existing'.points = getKey id old.points := by
  unfold deleteFromBackend
  cases back with
  | sqliteVec => exact .inr ⟨world, rfl, rfl, fun _ old h => ⟨old, h, fun _ _ => rfl⟩⟩
  | focalVector actv =>
    dsimp only
    split
    · exact .inr ⟨world, rfl, rfl, fun _ old h => ⟨old, h, fun _ _ => rfl⟩⟩
    · split
      · refine .inr ⟨_, rfl, rfl, fun coll old h => ?_⟩
        by_cases ha : coll = actv
        · subst ha
          refine ⟨{ old with points := old.points.filter fun e => e.1 ∉ ids },
            ?_, fun id hid => ?_⟩
          · simp [changePoints, h]
          · exact getKey_filter_of_forall fun _ => decide_eq_true hid
        · refine ⟨old, ?_, fun _ _ => rfl⟩
          simpa [changePoints, ha] using h
      · exact .inl ⟨_, rfl⟩

/-- Memories whose points go too. -/
theorem Sound.deleted (h : Sound given back world) (hdb : Restricts db' world.db)
    (hp : ∀ coll old, world.sidecar coll = some old →
      ∃ existing', next.sidecar coll = some existing' ∧
        ∀ id, id ∈ db'.allIds → getKey id existing'.points = getKey id old.points) :
    Sound given back { next with db := db' } where
  agrees := h.agrees.restricts hdb
  serves := by
    have hs := h.serves
    cases back with
    | sqliteVec =>
      intro id hid
      rw [hdb.vectors id hid]
      exact hs id (hdb.ids id hid)
    | focalVector coll =>
      obtain ⟨hst, old, he, hi⟩ := hs
      obtain ⟨existing', he', hsa⟩ := hp coll old he
      refine ⟨fun id hid => ?_, existing', he', hi.restricts hdb hsa⟩
      exact hdb.embeddings id hid ▸ hst id (hdb.ids id hid)

theorem Sound.restricts (h : Sound given back world) (hdb : Restricts db' world.db) :
    Sound given back { world with db := db' } :=
  h.deleted hdb fun _ old he => ⟨old, he, fun _ _ => rfl⟩

/-- A deletion of ids, from the sidecar first. -/
theorem Sound.deleteBoth (h : Sound given back world) {f : World → World}
    (hf : ∀ next : World, next.db = world.db → (f next).sidecar = next.sidecar ∧
      Restricts (f next).db world.db ∧ ∀ id ∈ (f next).db.allIds, id ∉ ids) :
    Ends (Sound given back) (Sound given back)
      (deleteFromBackend served back ids world >>= fun next => .ok (f next)) := by
  obtain ⟨err, hd⟩ | ⟨next, hd, hdb, hp⟩ := deleteFromBackend_cases served back ids world
  · rw [hd]
    exact h
  · rw [hd]
    obtain ⟨hs, hr, hg⟩ := hf next hdb
    have hso : Sound given back { f next with db := (f next).db } := by
      refine h.deleted hr fun coll old he => ?_
      obtain ⟨existing', he', hsa⟩ := hp coll old he
      exact ⟨existing', hs ▸ he', fun id hid => hsa id (hg id hid)⟩
    exact hso

theorem Sound.prune (h : Sound given back world) (served : Bool) (pol : MemoryPolicy) (now : ℤ) :
    Ends (Sound given back) (Sound given back)
      (pruneBackendLocked served pol now back world) := by
  cases back with
  | sqliteVec => exact h.restricts (restricts_pruneLocked pol now world.db)
  | focalVector coll =>
    refine h.deleteBoth fun next hdb => ⟨rfl, ?_, fun id hid => ?_⟩
    · rw [← hdb]
      exact restricts_deleteMetadataIds _ _
    · exact not_mem_of_mem_filter hid

theorem Sound.forget (h : Sound given store.vectorBackend world) (served : Bool) (id : MemoryId) :
    Ends (Sound given store.vectorBackend) (Sound given store.vectorBackend)
      (store.forget served id world) := by
  refine h.deleteBoth fun next hdb => ⟨rfl, ?_, fun other ho => ?_⟩
  · have hd := restricts_deleteIdsForBackend next.db [id] store.vectorBackend
    rw [hdb] at hd
    exact ⟨hdb ▸ hd.ids, hdb ▸ hd.vectors, hdb ▸ hd.embeddings⟩
  · exact not_mem_deleteIdsForBackend ho

theorem Sound.clear (h : Sound given store.vectorBackend world) (served : Bool) :
    Sound given store.vectorBackend (left ((store.clear served world).map Prod.fst)) := by
  unfold MemoryStore.clear
  obtain ⟨err, hd⟩ | ⟨next, hd, hdb, hp⟩ :=
    deleteFromBackend_cases served store.vectorBackend world.db.allIds world
  · rw [hd]
    exact h
  · rw [hd]
    refine h.deleted ⟨by simp [allIds], by simp [allIds], by
      simp [allIds]⟩ fun coll old he => ?_
    obtain ⟨existing', he', -⟩ := hp coll old he
    exact ⟨existing', he', by simp [allIds]⟩

/-! The sidecar catches up. -/

theorem mem_pending {item : MemoryRow × Embedding} (h : item ∈ db.pending) :
    item.1 ∈ db.memories ∧ getKey item.1.id db.memoryEmbeddings = some ⟨item.2, false⟩ := by
  obtain ⟨row, hr, hi⟩ := mem_filterMap.mp h
  rcases hg : getKey row.id db.memoryEmbeddings with _ | ⟨emb, indexed⟩
  · simp [hg] at hi
  · cases indexed with
    | true => simp [hg] at hi
    | false =>
      obtain rfl : (row, emb) = item := by simpa [hg] using hi
      exact ⟨hr, hg⟩

theorem getKey_setIndexed (db : MemoryDb) (indexed : MemoryId → Bool → Bool) (id : MemoryId) :
    getKey id (db.setIndexed indexed).memoryEmbeddings = (getKey id db.memoryEmbeddings).map
      fun stored => { stored with indexed := indexed id stored.indexed } := by
  let mark (id : MemoryId) (stored : StoredEmbedding) : StoredEmbedding :=
    { stored with indexed := indexed id stored.indexed }
  exact getKey_mapEntry mark id db.memoryEmbeddings

theorem Agrees.setIndexed (h : Agrees given db) (indexed : MemoryId → Bool → Bool) :
    Agrees given (db.setIndexed indexed) where
  vectors := h.vectors
  embeddings id hid stored hget := by
    rw [getKey_setIndexed] at hget
    obtain ⟨pre, hp, rfl⟩ := Option.map_eq_some_iff.mp hget
    exact h.embeddings id hid pre hp
  stored id hid := by
    rw [getKey_setIndexed]
    refine (h.stored id hid).imp_right fun hne => ?_
    simpa using hne

theorem getKey_upsert_of_not_mem {batch : List (MemoryRow × Embedding)}
    {points : List (MemoryId × Point)} (h : ∀ item ∈ batch, item.1.id ≠ id) :
    getKey id (upsert batch points) = getKey id points := by
  induction batch generalizing points with
  | nil => rfl
  | cons item batch ih =>
    obtain ⟨hi, hb⟩ := forall_mem_cons.mp h
    exact (ih hb).trans (getKey_putKey_of_ne hi.symm)

/-- All items of an id have the same embedding. -/
theorem getKey_upsert {batch : List (MemoryRow × Embedding)} {points : List (MemoryId × Point)}
    {emb : Embedding} (hm : ∃ item ∈ batch, item.1.id = id)
    (h : ∀ item ∈ batch, item.1.id = id → item.2 = emb) :
    (getKey id (upsert batch points)).map Point.vector = some emb := by
  induction batch generalizing points with
  | nil =>
    obtain ⟨item, hi, -⟩ := hm
    cases hi
  | cons item batch ih =>
    obtain ⟨hi, hb⟩ := forall_mem_cons.mp h
    by_cases hl : ∃ item ∈ batch, item.1.id = id
    · exact ih hl hb
    · have hn : ∀ item ∈ batch, item.1.id ≠ id := fun item hm hid => hl ⟨item, hm, hid⟩
      obtain ⟨fst, hfirst, hid⟩ := hm
      obtain rfl | hfirst := mem_cons.mp hfirst
      · have hla : getKey id (upsert (fst :: batch) points) =
            some ⟨fst.2, pointMetadata fst.1⟩ :=
          (getKey_upsert_of_not_mem hn).trans (hid ▸ getKey_putKey_self)
        rw [hla, ← hi hid]
        rfl
      · exact absurd hid (hn fst hfirst)

theorem Sound.syncBatch (h : Sound given (.focalVector coll) world)
    {batch : List (MemoryRow × Embedding)} (hba : ∀ item ∈ batch, item ∈ world.db.pending) :
    Sound given (.focalVector coll) (syncBatch coll batch world) := by
  obtain ⟨hs, old, he, hix⟩ := h.serves
  refine ⟨?_, fun id hid => ?_, ?_⟩
  · unfold Memory.syncBatch
    dsimp only
    exact h.agrees.setIndexed _
  · have hne := hs id hid
    unfold Memory.syncBatch
    rw [getKey_setIndexed]
    simpa using hne
  · refine ⟨{ old with points := upsert batch old.points }, ?_, ?_⟩
    · simp [Memory.syncBatch, changePoints, he]
    · intro id hid stored hg hse
      unfold Memory.syncBatch at hg
      rw [getKey_setIndexed] at hg
      obtain ⟨pre, hpr, rfl⟩ := Option.map_eq_some_iff.mp hg
      by_cases hin : ∃ item ∈ batch, item.1.id = id
      · refine getKey_upsert hin fun item hit hi => ?_
        have hpe := (mem_pending (hba item hit)).2
        rw [hi, hpr] at hpe
        cases hpe
        rfl
      · have ho : ∀ item ∈ batch, item.1.id ≠ id := fun item hit hi =>
          hin ⟨item, hit, hi⟩
        have hb : pre.indexed := by
          have hn : id ∉ batch.map fun item => item.1.id := by
            intro hm
            obtain ⟨item, hit, hi⟩ := mem_map.mp hm
            exact ho item hit hi
          simpa [hn] using hse
        have hp := hix id hid pre hpr hb
        rw [← getKey_upsert_of_not_mem ho] at hp
        exact hp

theorem Sound.syncRounds (fuel : ℕ) (h : Sound given (.focalVector coll) world) :
    Sound given (.focalVector coll) (syncRounds coll fuel world) := by
  induction fuel generalizing world with
  | zero => exact h
  | succ fuel ih =>
    unfold Memory.syncRounds
    dsimp only
    split
    · exact h
    · exact ih (h.syncBatch fun item hi => mem_of_mem_take hi)

theorem Sound.sync (h : Sound given back world) (served : Bool) :
    Ends (Sound given back) (Sound given back)
      (syncPendingEmbeddings served back world) := by
  unfold syncPendingEmbeddings
  cases back with
  | sqliteVec => exact h
  | focalVector coll =>
    dsimp only
    split
    · exact h
    · split
      · exact h.syncRounds _
      · exact h

/-! A memory is created. -/

/-- The table that is not active has no embedding but the new one under the id that comes next. -/
def Unused (db : MemoryDb) (embedding : Embedding) : VectorBackend → Prop
  | .sqliteVec => ∀ stored, getKey db.nextRowid db.memoryEmbeddings = some stored →
    stored.embedding = embedding
  | .focalVector _ => ∀ other, getKey db.nextRowid db.memoryVectors = some other → other = embedding

theorem mem_allIds_append {row : MemoryRow} {mems : List MemoryRow}
    (h : id ∈ (mems ++ [row]).map MemoryRow.id) :
    id ∈ mems.map MemoryRow.id ∨ id = row.id := by
  simpa using h

/-- A row is appended. An id that was found before is found as it was. -/
theorem getKey_append_singleton {ν : Type} {ents : List (MemoryId × ν)} {new : MemoryId}
    (v : ν) (hne : id ≠ new) : getKey id (ents ++ [(new, v)]) = getKey id ents := by
  rw [getKey_append, getKey_cons, if_neg hne]
  exact Option.or_none

theorem getKey_append_self {ν : Type} {ents : List (MemoryId × ν)} {v : ν}
    (h : getKey id ents = none) : getKey id (ents ++ [(id, v)]) = some v := by
  rw [getKey_append, getKey_cons, if_pos rfl, h]
  rfl

theorem Sound.insertSqliteVec (h : Sound given .sqliteVec world) {row : MemoryRow}
    {emb : Embedding} (hr : row.id = world.db.nextRowid)
    (hn : getKey world.db.nextRowid world.db.memoryVectors = none)
    (hu : Unused world.db emb .sqliteVec) :
    Sound (putKey world.db.nextRowid emb given) .sqliteVec { world with db :=
      { world.db with
        memories := world.db.memories ++ [row]
        memoryVectors := world.db.memoryVectors ++ [(world.db.nextRowid, emb)] } } := by
  have hne := nextRowid_not_mem world.db
  have hold : ∀ id ∈ world.db.allIds, id ≠ world.db.nextRowid := fun id hid heq => hne (heq ▸ hid)
  refine ⟨⟨?_, ?_, ?_⟩, ?_⟩
  · intro id hid found hg
    obtain hid | hid := mem_allIds_append hid
    · rw [getKey_putKey_of_ne (hold id hid)]
      rw [getKey_append_singleton _ (hold id hid)] at hg
      exact h.agrees.vectors id hid found hg
    · obtain rfl : id = world.db.nextRowid := hid.trans hr
      rw [getKey_append_self hn] at hg
      rw [getKey_putKey_self, ← hg]
  · intro id hid stored hg
    obtain hid | hid := mem_allIds_append hid
    · rw [getKey_putKey_of_ne (hold id hid)]
      exact h.agrees.embeddings id hid stored hg
    · obtain rfl : id = world.db.nextRowid := hid.trans hr
      rw [getKey_putKey_self, hu stored hg]
  · intro id hid
    obtain hid | hid := mem_allIds_append hid
    · refine .inl ?_
      rw [getKey_append_singleton _ (hold id hid)]
      exact h.serves id hid
    · obtain rfl : id = world.db.nextRowid := hid.trans hr
      exact .inl (by rw [getKey_append_self hn]; exact Option.some_ne_none _)
  · intro id hid
    obtain hid | hid := mem_allIds_append hid
    · rw [getKey_append_singleton _ (hold id hid)]
      exact h.serves id hid
    · obtain rfl : id = world.db.nextRowid := hid.trans hr
      rw [getKey_append_self hn]
      exact Option.some_ne_none _

theorem Sound.insertFocalVector (h : Sound given (.focalVector coll) world) {row : MemoryRow}
    {emb : Embedding} (hr : row.id = world.db.nextRowid)
    (hn : getKey world.db.nextRowid world.db.memoryEmbeddings = none)
    (hu : Unused world.db emb (.focalVector coll)) :
    Sound (putKey world.db.nextRowid emb given) (.focalVector coll) { world with db :=
      { world.db with
        memories := world.db.memories ++ [row]
        memoryEmbeddings :=
          world.db.memoryEmbeddings ++ [(world.db.nextRowid, ⟨emb, false⟩)] } } := by
  have hne := nextRowid_not_mem world.db
  have hold : ∀ id ∈ world.db.allIds, id ≠ world.db.nextRowid := fun id hid heq => hne (heq ▸ hid)
  obtain ⟨hst, old, he, hi⟩ := h.serves
  have hs : ∀ id ∈ (world.db.memories ++ [row]).map MemoryRow.id,
      getKey id (world.db.memoryEmbeddings ++ [(world.db.nextRowid, ⟨emb, false⟩)]) ≠
        none := by
    intro id hid
    obtain hid | hid := mem_allIds_append hid
    · rw [getKey_append_singleton _ (hold id hid)]
      exact hst id hid
    · obtain rfl : id = world.db.nextRowid := hid.trans hr
      rw [getKey_append_self hn]
      exact Option.some_ne_none _
  refine ⟨⟨?_, ?_, fun id hid => .inr (hs id hid)⟩, hs, old, he, ?_⟩
  · intro id hid found hg
    obtain hid | hid := mem_allIds_append hid
    · rw [getKey_putKey_of_ne (hold id hid)]
      exact h.agrees.vectors id hid found hg
    · obtain rfl : id = world.db.nextRowid := hid.trans hr
      rw [getKey_putKey_self, hu found hg]
  · intro id hid stored hg
    obtain hid | hid := mem_allIds_append hid
    · rw [getKey_putKey_of_ne (hold id hid)]
      rw [getKey_append_singleton _ (hold id hid)] at hg
      exact h.agrees.embeddings id hid stored hg
    · obtain rfl : id = world.db.nextRowid := hid.trans hr
      rw [getKey_append_self hn] at hg
      cases hg
      exact getKey_putKey_self
  · intro id hid stored hg hse
    obtain hid | hid := mem_allIds_append hid
    · rw [getKey_append_singleton _ (hold id hid)] at hg
      exact hi id hid stored hg hse
    · obtain rfl : id = world.db.nextRowid := hid.trans hr
      rw [getKey_append_self hn] at hg
      cases hg
      cases hse

theorem Sound.insertMemory (h : Sound given store.vectorBackend world) {text : String}
    {emb : Embedding} {metadata : Value}
    (hi : store.insertMemory now text emb metadata world.db = some db)
    (hu : Unused world.db emb store.vectorBackend) :
    Sound (putKey world.db.nextRowid emb given) store.vectorBackend { world with db := db } := by
  obtain ⟨dimension, pol, back⟩ := store
  unfold insertMemory at hi
  cases back with
  | sqliteVec =>
    dsimp only at hi
    split at hi
    · rename_i hn
      cases hi
      exact h.insertSqliteVec rfl hn hu
    · cases hi
  | focalVector coll =>
    dsimp only at hi
    split at hi
    · rename_i hn
      cases hi
      exact h.insertFocalVector rfl hn hu
    · cases hi

/-! A store is opened. -/

/-- The number of points tells whether a collection is the index of the embeddings that are kept. -/
def CountTells (world : World) (collection : String) : Prop :=
  ∀ existing, world.sidecar collection = some existing →
    existing.points.length =
        (world.db.memoryEmbeddings.filter fun entry => entry.1 ∈ world.db.allIds).length →
      Indexed world.db existing

theorem getKey_importFocal (db : MemoryDb) (id : MemoryId) :
    getKey id (importFocalEmbeddingsToSqlite db).memoryVectors =
      (getKey id db.memoryVectors).or
        ((getKey id db.memoryEmbeddings).map StoredEmbedding.embedding) := by
  unfold importFocalEmbeddingsToSqlite
  dsimp only
  rw [getKey_append, getKey_map]
  rcases hg : getKey id db.memoryVectors with _ | emb
  · rw [getKey_filter_of_forall fun _ => decide_eq_true hg]
  · rfl

theorem getKey_importLegacy (db : MemoryDb) (id : MemoryId) :
    getKey id (importLegacyEmbeddings db).memoryEmbeddings =
      (getKey id db.memoryEmbeddings).or
        ((getKey id db.memoryVectors).map fun emb => ⟨emb, false⟩) := by
  unfold importLegacyEmbeddings
  dsimp only
  rw [getKey_append, getKey_map fun emb => (⟨emb, false⟩ : StoredEmbedding)]
  rcases hg : getKey id db.memoryEmbeddings with _ | stored
  · rw [getKey_filter_of_forall fun _ => decide_eq_true hg]
  · rfl

theorem Agrees.importFocal (h : Agrees given world.db) : Sound given .sqliteVec
    { world with db := importFocalEmbeddingsToSqlite world.db } := by
  have hp : ∀ id ∈ world.db.allIds,
      getKey id (importFocalEmbeddingsToSqlite world.db).memoryVectors ≠ none := by
    intro id hid
    rw [getKey_importFocal]
    rcases hg : getKey id world.db.memoryVectors with _ | emb
    · simpa [hg] using h.stored id hid
    · exact Option.some_ne_none _
  refine ⟨⟨fun id hid emb hg => ?_, h.embeddings, fun id hid => .inl (hp id hid)⟩, hp⟩
  rw [getKey_importFocal] at hg
  obtain hg | ⟨-, hg⟩ := Option.or_eq_some_iff.mp hg
  · exact h.vectors id hid emb hg
  · obtain ⟨stored, hs, rfl⟩ := Option.map_eq_some_iff.mp hg
    exact h.embeddings id hid stored hs

theorem Agrees.importLegacy (h : Agrees given world.db)
    (hex : world.sidecar coll = some old) (hi : Indexed world.db old) :
    Sound given (.focalVector coll) { world with db := importLegacyEmbeddings world.db } := by
  have hp : ∀ id ∈ world.db.allIds,
      getKey id (importLegacyEmbeddings world.db).memoryEmbeddings ≠ none := by
    intro id hid
    rw [getKey_importLegacy]
    rcases hg : getKey id world.db.memoryEmbeddings with _ | stored
    · simpa [hg] using h.stored id hid
    · exact Option.some_ne_none _
  refine ⟨⟨h.vectors, fun id hid stored hg => ?_, fun id hid => .inr (hp id hid)⟩,
    hp, old, hex, fun id hid stored hg hs => ?_⟩
  · rw [getKey_importLegacy] at hg
    obtain hg | ⟨-, hg⟩ := Option.or_eq_some_iff.mp hg
    · exact h.embeddings id hid stored hg
    · obtain ⟨emb, he, rfl⟩ := Option.map_eq_some_iff.mp hg
      exact h.vectors id hid emb he
  · rw [getKey_importLegacy] at hg
    obtain hg | ⟨-, hg⟩ := Option.or_eq_some_iff.mp hg
    · exact hi id hid stored hg hs
    · obtain ⟨emb, -, rfl⟩ := Option.map_eq_some_iff.mp hg
      cases hs

/-- Nothing is indexed when everything is to be indexed again. -/
theorem indexed_setIndexed_false (db : MemoryDb) (old : Collection) :
    Indexed (db.setIndexed fun _ _ => false) old := by
  intro id _ stored hg hs
  rw [getKey_setIndexed] at hg
  obtain ⟨pre, -, rfl⟩ := Option.map_eq_some_iff.mp hg
  cases hs

theorem Agrees.openCollection (h : Agrees given world.db) (dimension : ℕ)
    (hc : ∀ old, world.sidecar coll = some old →
      old.points.length = world.db.memoryEmbeddings.length → Indexed world.db old) :
    Ends (fun next => Agrees given next.db ∧ ∃ old,
        next.sidecar coll = some old ∧ Indexed next.db old)
      (fun next => Agrees given next.db) (openCollection dimension coll world) := by
  have hs : Agrees given (world.db.setIndexed fun _ _ => false) := h.setIndexed _
  unfold Memory.openCollection
  dsimp only
  rcases he : world.sidecar coll with _ | old
  · exact ⟨hs, ⟨dimension, .cosine, []⟩, by simp, indexed_setIndexed_false _ _⟩
  · dsimp only
    split
    · exact h
    · split
      · exact ⟨hs, old, he, indexed_setIndexed_false _ _⟩
      · rename_i hl
        exact ⟨h, old, he, hc old he (not_not.mp hl)⟩

/-- What a session keeps: with a store open, its backend has every memory. -/
structure Session.Sound (session : Session) : Prop where
  agrees : Agrees session.given session.world.db
  serves : ∀ store, session.store = some store → Serves session.world store.vectorBackend

theorem sound_reopen_error {sess : Session} (h : Agrees sess.given world.db)
    {out : Outcome (World × MemoryStore)} {err : String} (ho : out = .error (world, err))
    : (sess.reopen out).Sound := by
  subst ho
  exact ⟨h, by simp [Session.reopen, Except.toOption]⟩

theorem sound_openWithPolicy {sess : Session} (h : sess.Sound) (now : ℤ) (dimension : ℕ)
    (pol : MemoryPolicy) :
    (sess.reopen (openWithPolicy now dimension pol sess.world)).Sound := by
  unfold openWithPolicy
  split
  · exact sound_reopen_error h.agrees rfl
  · rcases hi : initSchema dimension pol sess.world.db with err | db
    · exact sound_reopen_error h.agrees rfl
    · let prepared : World := { sess.world with db }
      have ha : Agrees sess.given prepared.db := h.agrees.restricts (restricts_initSchema hi)
      have hs := ha.importFocal.restricts (restricts_pruneLocked pol now _)
      refine ⟨hs.agrees, fun store hst => ?_⟩
      cases hst
      exact hs.serves

theorem sound_reopen_map {sess : Session} {opn : Outcome World} {store : MemoryStore}
    (h : Ends (Sound sess.given store.vectorBackend) (fun next => Agrees sess.given next.db) opn) :
    (sess.reopen (opn.map fun world => (world, store))).Sound := by
  cases opn with
  | error error => exact ⟨h, by simp [Session.reopen, Except.toOption, Except.map]⟩
  | ok world =>
    refine ⟨h.agrees, fun other ho => ?_⟩
    cases ho
    exact h.serves

theorem length_initSchema {dimension : ℕ} (h : initSchema dimension pol db = .ok db') :
    db'.memoryEmbeddings.length = (db.memoryEmbeddings.filter fun e => e.1 ∈ db.allIds).length := by
  unfold initSchema at h
  dsimp only at h
  split at h
  · cases h
  · cases h
    rfl

theorem sound_openFocalVectorWithPolicy {sess : Session} (h : sess.Sound) (served : Bool) (now : ℤ)
    (dimension : ℕ) (pol : MemoryPolicy) (coll : Option String)
    (hc : CountTells sess.world (coll.getD focalVectorCollection)) :
    (sess.reopen (openFocalVectorWithPolicy served now dimension pol coll
      sess.world)).Sound := by
  unfold openFocalVectorWithPolicy
  split
  · exact sound_reopen_error h.agrees rfl
  · rcases hi : initSchema dimension pol sess.world.db with err | db
    · exact sound_reopen_error h.agrees rfl
    · have hr := restricts_initSchema hi
      have ha := h.agrees.restricts hr
      dsimp only
      split
      · exact sound_reopen_error ha rfl
      · generalize hna : coll.getD focalVectorCollection = name at hc ⊢
        let prep : World := { sess.world with db }
        have hpr : Agrees sess.given prep.db := ha
        have hco : ∀ old, prep.sidecar name = some old →
            old.points.length = prep.db.memoryEmbeddings.length →
              Indexed prep.db old := fun old he hl =>
          (hc old he (hl.trans (length_initSchema hi))).restricts hr fun _ _ => rfl
        have ho := hpr.openCollection dimension hco
        have hen := ho.bind fun next hne => by
          obtain ⟨hn, old, he, hid⟩ := hne
          have hs := (hn.importLegacy he hid).sync served
          have hp := hs.bind fun next hne => hne.prune served pol now
          exact hp.mono (fun _ h => h) fun _ h => h.agrees
        exact sound_reopen_map hen

/-- A failed call leaves the session with nothing new, and so does one that is not `remember`. -/
theorem Session.sound_follow {sess : Session} (hso : sess.store = some store) {call : MemoryCall}
    (hs : Memory.Sound (sess.given' (store.created sess.world call))
      store.vectorBackend (store.perform sess.world call))
    {after : Session} (hst : sess.step (.call call) = some after) : after.Sound := by
  simp only [Session.step, hso, Option.map_some, Option.some.injEq] at hst
  subst hst
  refine ⟨hs.agrees, fun other ho => ?_⟩
  cases ho
  exact hs.serves

theorem Sound.remember {sess : Session}
    (h : Sound sess.given store.vectorBackend world) (served : Bool) (now : ℤ) (text : String)
    (emb : Embedding) (metadata : Value)
    (hu : Unused world.db emb store.vectorBackend) :
    Sound (sess.given' (store.created world (.remember served now text emb metadata)))
      store.vectorBackend
      (store.perform world (.remember served now text emb metadata)) := by
  simp only [MemoryStore.perform, MemoryStore.created, MemoryStore.remember]
  by_cases hd : emb.length = store.dimension
  · rcases hi : store.insertMemory now text emb metadata world.db with _ | db
    · simp only [hd, ne_eq, not_true_eq_false, if_false, Option.isSome_none, and_false,
        Bool.false_eq_true]
      exact h
    · simp only [hd, ne_eq, not_true_eq_false, if_false, Option.isSome_some, and_self,
        if_true]
      rw [left_map_fst]
      have hs := (h.insertMemory hi hu).sync served
      exact (hs.bind fun next hn => hn.prune served store.policy now).left
  · simp only [hd, ne_eq, not_false_eq_true, if_true, false_and, if_false]
    exact h

/-- The condition on a step: a new memory has its id for itself, and the points of a collection
are counted right. -/
def Session.KeepsApart (session : Session) : MemoryEvent → Prop
  | .call (.remember _ _ _ embedding _) =>
    ∀ store, session.store = some store → Unused session.world.db embedding store.vectorBackend
  | .openFocalVectorWithPolicy _ _ _ _ collection =>
    CountTells session.world (collection.getD focalVectorCollection)
  | _ => True

theorem Session.Sound.call {sess after : Session} (h : sess.Sound) {call : MemoryCall}
    (hse : sess.step (.call call) = some after) (hk : sess.KeepsApart (.call call)) :
    after.Sound := by
  rcases hst : sess.store with _ | store
  · simp [Session.step, hst] at hse
  · have hs : Memory.Sound sess.given store.vectorBackend sess.world :=
      ⟨h.agrees, h.serves store hst⟩
    refine Session.sound_follow hst ?_ hse
    cases call with
    | remember served now text emb metadata =>
      exact hs.remember served now text emb metadata (hk store hst)
    | «recall» served now queryEmbedding =>
      simp only [perform, MemoryStore.recall]
      split
      · exact hs
      · exact ((hs.prune served store.policy now).bind fun next hn =>
          hn.sync served).left
    | status served now => exact (hs.prune served store.policy now).left
    | forget served id => exact (hs.forget served id).left
    | clear served => exact hs.clear served
    | saveDocument document => exact hs.restricts ⟨fun _ h => h, fun _ _ => rfl, fun _ _ => rfl⟩
    | document src => exact hs.restricts ⟨fun _ h => h, fun _ _ => rfl, fun _ _ => rfl⟩
    | documents => exact hs.restricts ⟨fun _ h => h, fun _ _ => rfl, fun _ _ => rfl⟩
    | deleteDocument src =>
      exact hs.restricts ⟨fun _ h => h, fun _ _ => rfl, fun _ _ => rfl⟩

theorem Session.Sound.step {sess after : Session} {ev : MemoryEvent}
    (hs : sess.step ev = some after) (hk : sess.KeepsApart ev)
    (h : sess.Sound) : after.Sound := by
  cases ev with
  | call call => exact h.call hs hk
  | openWithPolicy now dimension pol =>
    cases hs
    exact sound_openWithPolicy h now dimension pol
  | openFocalVectorWithPolicy served now dimension pol coll =>
    cases hs
    exact sound_openFocalVectorWithPolicy h served now dimension pol coll hk

theorem Session.sound_start (sidecar : String → Option Collection) :
    (Session.start sidecar).Sound := by
  refine ⟨⟨?_, ?_, ?_⟩, ?_⟩ <;> simp [Session.start, empty, allIds]

/-- Each memory has, in the table of the backend and in the point made from it, the embedding that
it was given. -/
def Associates (given : List (MemoryId × Embedding)) (world : World) : VectorBackend → Prop
  | .sqliteVec => ∀ id ∈ world.db.allIds, ∃ embedding,
    getKey id given = some embedding ∧ getKey id world.db.memoryVectors = some embedding
  | .focalVector collection => ∀ id ∈ world.db.allIds, ∃ embedding indexed existing,
    getKey id given = some embedding ∧
      getKey id world.db.memoryEmbeddings = some ⟨embedding, indexed⟩ ∧
      world.sidecar collection = some existing ∧
      (indexed = true → (getKey id existing.points).map Point.vector = some embedding)

theorem Sound.associates (h : Sound given back world) : Associates given world back := by
  have hs := h.serves
  cases back with
  | sqliteVec =>
    intro id hid
    obtain ⟨emb, hg⟩ := Option.ne_none_iff_exists'.mp (hs id hid)
    exact ⟨emb, h.agrees.vectors id hid emb hg, hg⟩
  | focalVector coll =>
    intro id hid
    obtain ⟨hst, old, he, hi⟩ := hs
    obtain ⟨⟨emb, indexed⟩, hg⟩ := Option.ne_none_iff_exists'.mp (hst id hid)
    exact ⟨emb, indexed, old, h.agrees.embeddings id hid _ hg, hg, he, hi id hid _ hg⟩

/-- In every run that meets the condition, each memory keeps the embedding that it was created
with. -/
theorem memory_keeps_embedding (sidecar : String → Option Collection) (events : List MemoryEvent)
    (final : Session) (store : MemoryStore)
    (hkeeps : Meets Session.step Session.KeepsApart (Session.start sidecar) events)
    (hrun : run Session.step (Session.start sidecar) events = some final)
    (hstore : final.store = some store) :
    Associates final.given final.world store.vectorBackend := by
  have hs := run_invariant_of_meets Session.Sound.step hkeeps hrun (Session.sound_start sidecar)
  exact Sound.associates ⟨hs.agrees, hs.serves store hstore⟩

def lasting : MemoryPolicy := ⟨none, none⟩

/-- Two memories, created under one backend and then under the other. -/
def switched : List MemoryEvent :=
  [.openWithPolicy 0 1 lasting, .call (.remember true 0 "first" [1] .null),
    .openFocalVectorWithPolicy true 0 1 lasting none,
    .call (.remember true 0 "second" [2] .null)]

theorem keepsApart_switched :
    Meets Session.step Session.KeepsApart (Session.start fun _ => none) switched := by
  refine ⟨trivial, fun s hs => ⟨?_, fun s' hs' => ⟨?_, fun s'' hs'' => ⟨?_, fun _ _ => trivial⟩⟩⟩⟩
  · cases hs
    intro store hst
    cases hst
    intro stored hg
    cases hg
  · cases hs
    cases hs'
    intro old he
    cases he
  · cases hs
    cases hs'
    cases hs''
    intro store hst
    cases hst
    intro other hg
    cases hg

theorem memory_keeps_embedding_sample : ∃ (final : Session) (store : MemoryStore),
    final.store = some store ∧ store.vectorBackend = .focalVector focalVectorCollection ∧
      final.world.db.allIds = [1, 2] ∧
      Associates final.given final.world store.vectorBackend :=
  ⟨_, _, rfl, rfl, rfl,
    memory_keeps_embedding (fun _ => none) switched _ _ keepsApart_switched rfl rfl⟩

/-- A memory is forgotten under the other backend, and the next one has its id. -/
def reused : List MemoryEvent :=
  [.openWithPolicy 0 1 lasting, .call (.remember true 0 "first" [1] .null),
    .openFocalVectorWithPolicy true 0 1 lasting none, .call (.forget true 1),
    .call (.remember true 0 "second" [2] .null), .openWithPolicy 0 1 lasting]

theorem run_reused : ∃ (final : Session) (store : MemoryStore),
    run Session.step (Session.start fun _ => none) reused = some final ∧
      final.store = some store ∧ store.vectorBackend = .sqliteVec ∧
      1 ∈ final.world.db.allIds ∧ getKey 1 final.given = some [2] ∧
        getKey 1 final.world.db.memoryVectors = some [1] :=
  ⟨_, _, rfl, rfl, rfl, mem_singleton_self _, rfl, rfl⟩

theorem embedding_of_another : ¬ ∀ (sidecar : String → Option Collection)
    (events : List MemoryEvent) (final : Session) (store : MemoryStore),
    run Session.step (Session.start sidecar) events = some final → final.store = some store →
      Associates final.given final.world store.vectorBackend := by
  intro h
  obtain ⟨final, store, hr, hs, hb, hid, hg, hv⟩ := run_reused
  have ha := h _ reused final store hr hs
  rw [hb] at ha
  obtain ⟨emb, hg', hv'⟩ := ha 1 hid
  have hsa := (hv.symm.trans hv').trans (hg'.symm.trans hg)
  simp at hsa

end FocalDesk.Memory
