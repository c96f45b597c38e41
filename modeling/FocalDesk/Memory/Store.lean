import FocalDesk.Json
import FocalDesk.Library.AssocList
import FocalDesk.Library.Transition
import Mathlib.Algebra.Order.Ring.Int
import Mathlib.Data.List.Dedup
import Mathlib.Data.List.Sort

/-! The memory store: one database, two tables of embeddings, and the vector sidecar. -/
namespace FocalDesk.Memory
open Library

abbrev MemoryId := ℤ

/-- The floats of a vector, each as its 32 bits. -/
abbrev Embedding := List UInt32

structure MemoryPolicy where
  retention : Option ℕ
  maxEntries : Option ℕ

/-- A row of the table of memories. -/
structure MemoryRow where
  id : MemoryId
  text : String
  metadata : Value
  createdAtUnix : ℤ
  expiresAtUnix : Option ℤ

structure IndexedDocument where
  source : String
  title : String
  mediaType : String
  contentHash : String
  modifiedAtUnix : ℤ
  indexedAtUnix : ℤ
  chunkCount : ℕ
  memoryIds : List MemoryId
deriving DecidableEq

/-- A row of `memory_embeddings`. -/
structure StoredEmbedding where
  embedding : Embedding
  indexed : Bool
deriving DecidableEq

/-- The tables. A missing `memory_vectors` is an empty one. -/
structure MemoryDb where
  dimension : Option ℕ
  memories : List MemoryRow
  memoryVectors : List (MemoryId × Embedding)
  memoryEmbeddings : List (MemoryId × StoredEmbedding)
  indexedDocuments : List (String × IndexedDocument)

/-- A point. Its id is the decimal text of the memory's. -/
structure Point where
  vector : Embedding
  metadata : List (String × Value)

inductive Metric where
  | cosine
  | other (name : String)
deriving DecidableEq

def Metric.name : Metric → String
  | .cosine => "Cosine"
  | .other name => name

structure Collection where
  dimension : ℕ
  metric : Metric
  points : List (MemoryId × Point)

/-- The database and the collections of the sidecar. -/
structure World where
  db : MemoryDb
  sidecar : String → Option Collection

inductive VectorBackend where
  | sqliteVec
  | focalVector (collection : String)
deriving DecidableEq

structure MemoryStore where
  dimension : ℕ
  policy : MemoryPolicy
  vectorBackend : VectorBackend

/-- What an operation leaves, also when it fails. -/
abbrev Outcome := Except (World × String)

def focalVectorCollection : String := "focaldesk-memories-v1"

/-! Rows. -/

namespace MemoryDb

variable (db : MemoryDb)

def empty : MemoryDb := ⟨none, [], [], [], []⟩

/-- The rows are in the order of their ids. -/
def allIds : List MemoryId := db.memories.map MemoryRow.id

/-- The id of the next row: one more than the largest. -/
def nextRowid : MemoryId := db.allIds.foldl max 0 + 1

def deleteIds (ids : List MemoryId) : MemoryDb :=
  { db with
    memoryVectors := db.memoryVectors.filter fun entry => entry.1 ∉ ids
    memories := db.memories.filter fun row => row.id ∉ ids }

def deleteMetadataIds (ids : List MemoryId) : MemoryDb :=
  { db with
    memoryEmbeddings := db.memoryEmbeddings.filter fun entry => entry.1 ∉ ids
    memories := db.memories.filter fun row => row.id ∉ ids }

def deleteIdsForBackend (ids : List MemoryId) : VectorBackend → MemoryDb
  | .sqliteVec => db.deleteIds ids
  | .focalVector _ => db.deleteMetadataIds ids

end MemoryDb

def MemoryRow.expired (now : ℤ) (row : MemoryRow) : Bool :=
  row.expiresAtUnix.any fun expires => expires ≤ now

/-- Ascending by creation, then by id. -/
def MemoryRow.Older (row other : MemoryRow) : Prop :=
  row.createdAtUnix < other.createdAtUnix ∨
    row.createdAtUnix = other.createdAtUnix ∧ row.id ≤ other.id

instance : DecidableRel MemoryRow.Older :=
  fun _ _ => inferInstanceAs (Decidable (_ ∨ _))

/-- The ids of the oldest rows beyond the limit. -/
def excessIds (policy : MemoryPolicy) (rows : List MemoryRow) : List MemoryId :=
  match policy.maxEntries with
  | none => []
  | some maxEntries =>
    ((rows.insertionSort MemoryRow.Older).take (rows.length - maxEntries)).map MemoryRow.id

/-! Pruning. -/

def MemoryDb.pruneLocked (policy : MemoryPolicy) (now : ℤ) (sqliteVectors : Bool) (db : MemoryDb)
    : MemoryDb :=
  let delete (db : MemoryDb) (ids : List MemoryId) : MemoryDb :=
    if sqliteVectors then db.deleteIds ids else db.deleteMetadataIds ids
  let db := delete db ((db.memories.filter (MemoryRow.expired now)).map MemoryRow.id)
  delete db (excessIds policy db.memories)

def expiredAndExcessIds (policy : MemoryPolicy) (now : ℤ) (db : MemoryDb) : List MemoryId :=
  let expired := (db.memories.filter (MemoryRow.expired now)).map MemoryRow.id
  let remaining := db.memories.filter fun row => !row.expired now
  ((expired ++ excessIds policy remaining).insertionSort (· ≤ ·)).dedup

def changePoints (collection : String) (change : List (MemoryId × Point) → List (MemoryId × Point))
    (sidecar : String → Option Collection) : String → Option Collection :=
  Function.update sidecar collection
    ((sidecar collection).map fun existing => { existing with points := change existing.points })

/-- Nothing is asked of the sidecar when there is nothing to delete. -/
def deleteFromBackend (served : Bool) (backend : VectorBackend) (ids : List MemoryId)
    (world : World) : Outcome World :=
  match backend with
  | .sqliteVec => .ok world
  | .focalVector collection =>
    if ids.isEmpty then .ok world
    else if served then
      let delete (points : List (MemoryId × Point)) := points.filter fun entry => entry.1 ∉ ids
      .ok { world with sidecar := changePoints collection delete world.sidecar }
    else .error (world, "failed to delete memories from Focal Vector")

def pruneBackendLocked (served : Bool) (policy : MemoryPolicy) (now : ℤ) (backend : VectorBackend)
    (world : World) : Outcome World :=
  match backend with
  | .sqliteVec => .ok { world with db := world.db.pruneLocked policy now true }
  | .focalVector _ => do
    let ids := expiredAndExcessIds policy now world.db
    let world ← deleteFromBackend served backend ids world
    .ok { world with db := world.db.deleteIdsForBackend ids backend }

/-! Embeddings that the sidecar does not have yet. -/

def Value.ofMemoryId (id : MemoryId) : Value :=
  .number (if 0 ≤ id then .posInt id.toNat else .negInt id)

def isScalar : Value → Bool
  | .string _ => true
  | .number _ => true
  | .bool _ => true
  | _ => false

def pointMetadata (row : MemoryRow) : List (String × Value) :=
  (row.metadata.asObject.getD []).foldl
    (fun metadata member =>
      if isScalar member.2 then putKey ("meta_" ++ member.1) member.2 metadata else metadata)
    [("memory_id", Value.ofMemoryId row.id)]

/-- The memories whose stored embedding is not indexed. -/
def MemoryDb.pending (db : MemoryDb) : List (MemoryRow × Embedding) :=
  db.memories.filterMap fun row =>
    match getKey row.id db.memoryEmbeddings with
    | some stored => if stored.indexed then none else some (row, stored.embedding)
    | none => none

def upsert (batch : List (MemoryRow × Embedding)) (points : List (MemoryId × Point)) :
    List (MemoryId × Point) :=
  batch.foldl (fun points item => putKey item.1.id ⟨item.2, pointMetadata item.1⟩ points) points

def MemoryDb.setIndexed (db : MemoryDb) (indexed : MemoryId → Bool → Bool) : MemoryDb :=
  { db with memoryEmbeddings := db.memoryEmbeddings.map fun entry =>
      (entry.1, { entry.2 with indexed := indexed entry.1 entry.2.indexed }) }

/-- One request: a batch is upserted and marked. -/
def syncBatch (collection : String) (batch : List (MemoryRow × Embedding)) (world : World) :
    World where
  db := world.db.setIndexed fun id indexed =>
    indexed || (id ∈ batch.map fun item => item.1.id : Bool)
  sidecar := changePoints collection (upsert batch) world.sidecar

/-- The loop over batches of 256. The fuel is the number of embeddings that are pending. -/
def syncRounds (collection : String) : ℕ → World → World
  | 0, world => world
  | fuel + 1, world =>
    let batch := world.db.pending.take 256
    if batch.isEmpty then world
    else syncRounds collection fuel (syncBatch collection batch world)

def syncPendingEmbeddings (served : Bool) (backend : VectorBackend) (world : World) :
    Outcome World :=
  match backend with
  | .sqliteVec => .ok world
  | .focalVector collection =>
    if world.db.pending.isEmpty then .ok world
    else if served then .ok (syncRounds collection world.db.pending.length world)
    else .error (world, "failed to synchronize memories with Focal Vector")

/-! Opening. -/

/-- The transaction that creates the tables, deletes orphans and sets when memories expire. -/
def initSchema (dimension : ℕ) (policy : MemoryPolicy) (db : MemoryDb) : Except String MemoryDb :=
  let existing := db.dimension.getD dimension
  if existing ≠ dimension then
    .error s!"memory store was created with dimension {existing}, but opened with {dimension}"
  else
    .ok { db with
      dimension := some dimension
      memoryEmbeddings := db.memoryEmbeddings.filter fun entry => entry.1 ∈ db.allIds
      memoryVectors := db.memoryVectors.filter fun entry => entry.1 ∈ db.allIds
      memories := db.memories.map fun row =>
        { row with expiresAtUnix := policy.retention.map fun (retention : ℕ) =>
            row.createdAtUnix + min (retention : ℤ) (2 ^ 63 - 1) } }

def importLegacyEmbeddings (db : MemoryDb) : MemoryDb :=
  let legacy := db.memoryVectors.filter fun entry => getKey entry.1 db.memoryEmbeddings = none
  { db with memoryEmbeddings :=
      db.memoryEmbeddings ++ legacy.map fun entry => (entry.1, ⟨entry.2, false⟩) }

def importFocalEmbeddingsToSqlite (db : MemoryDb) : MemoryDb :=
  let embeddings := db.memoryEmbeddings.filter fun entry => getKey entry.1 db.memoryVectors = none
  { db with memoryVectors :=
      db.memoryVectors ++ embeddings.map fun entry => (entry.1, entry.2.embedding) }

def openWithPolicy (now : ℤ) (dimension : ℕ) (policy : MemoryPolicy) (world : World) :
    Outcome (World × MemoryStore) :=
  if policy.maxEntries = some 0 then
    .error (world, "memory max_entries must be greater than zero or disabled")
  else
    match initSchema dimension policy world.db with
    | .error error => .error (world, error)
    | .ok db =>
      let db := (importFocalEmbeddingsToSqlite db).pruneLocked policy now true
      .ok ({ world with db }, ⟨dimension, policy, .sqliteVec⟩)

/-- The collection is taken as it is when it has as many points as there are embeddings. Otherwise
every embedding is to be indexed again. -/
def openCollection (dimension : ℕ) (collection : String) (world : World) : Outcome World :=
  let stale := { world with db := world.db.setIndexed fun _ _ => false }
  match world.sidecar collection with
  | some existing =>
    if existing.dimension ≠ dimension ∨ existing.metric ≠ .cosine then
      .error (world, s!"Focal Vector collection '{collection}' has dimension " ++
        s!"{existing.dimension} and metric {existing.metric.name}; " ++
        s!"expected dimension {dimension} and cosine")
    else if existing.points.length ≠ world.db.memoryEmbeddings.length then .ok stale
    else .ok world
  | none => .ok { stale with
      sidecar := Function.update world.sidecar collection (some ⟨dimension, .cosine, []⟩) }

def openFocalVectorWithPolicy (served : Bool) (now : ℤ) (dimension : ℕ) (policy : MemoryPolicy)
    (collection : Option String) (world : World) : Outcome (World × MemoryStore) :=
  if policy.maxEntries = some 0 then
    .error (world, "memory max_entries must be greater than zero or disabled")
  else
    match initSchema dimension policy world.db with
    | .error error => .error (world, error)
    | .ok db =>
      let world := { world with db }
      if served = false then .error (world, "Focal Vector sidecar is unavailable")
      else
        let collection := collection.getD focalVectorCollection
        let backend := VectorBackend.focalVector collection
        let opened : Outcome World := do
          let world ← openCollection dimension collection world
          let world := { world with db := importLegacyEmbeddings world.db }
          let world ← syncPendingEmbeddings served backend world
          pruneBackendLocked served policy now backend world
        opened.map fun world => (world, ⟨dimension, policy, backend⟩)

/-! The operations of an open store. -/

namespace MemoryStore

variable (store : MemoryStore)

/-- The transaction of `remember`. A row that the table of the backend has already refuses it. -/
def insertMemory (now : ℤ) (text : String) (embedding : Embedding) (metadata : Value)
    (db : MemoryDb) : Option MemoryDb :=
  let id := db.nextRowid
  let expiresAtUnix := store.policy.retention.map fun (retention : ℕ) =>
    min (now + min (retention : ℤ) (2 ^ 63 - 1)) (2 ^ 63 - 1)
  let memories := db.memories ++ [⟨id, text, metadata, now, expiresAtUnix⟩]
  match store.vectorBackend with
  | .sqliteVec =>
    if getKey id db.memoryVectors = none then
      some { db with memories, memoryVectors := db.memoryVectors ++ [(id, embedding)] }
    else none
  | .focalVector _ =>
    if getKey id db.memoryEmbeddings = none then
      some { db with
        memories, memoryEmbeddings := db.memoryEmbeddings ++ [(id, ⟨embedding, false⟩)] }
    else none

def remember (served : Bool) (now : ℤ) (text : String) (embedding : Embedding) (metadata : Value)
    (world : World) : Outcome (World × MemoryId) :=
  if embedding.length ≠ store.dimension then
    .error (world, s!"embedding has {embedding.length} dims, store expects {store.dimension}")
  else
    match store.insertMemory now text embedding metadata world.db with
    | none => .error (world, "UNIQUE constraint failed")
    | some db =>
      let settled : Outcome World := do
        let world ← syncPendingEmbeddings served store.vectorBackend { world with db }
        pruneBackendLocked served store.policy now store.vectorBackend world
      settled.map fun settled => (settled, world.db.nextRowid)

/-- What a search does before it asks for the nearest embeddings. -/
def «recall» (served : Bool) (now : ℤ) (queryEmbedding : Embedding) (world : World) :
    Outcome World :=
  if queryEmbedding.length ≠ store.dimension then
    .error (world,
      s!"query embedding has {queryEmbedding.length} dims, store expects {store.dimension}")
  else do
    let world ← pruneBackendLocked served store.policy now store.vectorBackend world
    syncPendingEmbeddings served store.vectorBackend world

def status (served : Bool) (now : ℤ) (world : World) : Outcome World :=
  pruneBackendLocked served store.policy now store.vectorBackend world

end MemoryStore

/-! The catalog of documents. -/

/-- The entry with the ids that still exist, unless none of them does. -/
def IndexedDocument.reconcile (ids : List MemoryId) (document : IndexedDocument) :
    Option IndexedDocument :=
  let live := document.memoryIds.filter fun id => id ∈ ids
  if live = document.memoryIds then some document
  else if live.isEmpty then none
  else some { document with chunkCount := live.length, memoryIds := live }

def reconcileDocumentsLocked (db : MemoryDb) : MemoryDb :=
  { db with indexedDocuments := db.indexedDocuments.filterMap fun entry =>
      (entry.2.reconcile db.allIds).map fun document => (entry.1, document) }

/-- A count beyond the range of signed numbers reads as zero. -/
def saveDocument (document : IndexedDocument) (db : MemoryDb) : MemoryDb :=
  let chunkCount := if document.chunkCount < 2 ^ 63 then document.chunkCount else 0
  { db with indexedDocuments :=
      putKey document.source { document with chunkCount } db.indexedDocuments }

def document (source : String) (db : MemoryDb) : MemoryDb × Option IndexedDocument :=
  let db := reconcileDocumentsLocked db
  (db, getKey source db.indexedDocuments)

/-- By title, in which the case of a letter does not matter, then by source. -/
def IndexedDocument.Before (document other : IndexedDocument) : Prop :=
  document.title.toLower < other.title.toLower ∨
    document.title.toLower = other.title.toLower ∧ document.source ≤ other.source

instance : DecidableRel IndexedDocument.Before :=
  fun _ _ => inferInstanceAs (Decidable (_ ∨ _))

def documents (db : MemoryDb) : MemoryDb × List IndexedDocument :=
  let db := reconcileDocumentsLocked db
  (db, (db.indexedDocuments.map Prod.snd).insertionSort IndexedDocument.Before)

def deleteDocument (source : String) (db : MemoryDb) : MemoryDb :=
  { db with indexedDocuments := removeKey source db.indexedDocuments }

namespace MemoryStore

variable (store : MemoryStore)

def forget (served : Bool) (id : MemoryId) (world : World) : Outcome World := do
  let world ← deleteFromBackend served store.vectorBackend [id] world
  .ok { world with db :=
    reconcileDocumentsLocked (world.db.deleteIdsForBackend [id] store.vectorBackend) }

/-- Returns the number of memories there were. -/
def clear (served : Bool) (world : World) : Outcome (World × ℕ) :=
  let emptied (world : World) : World × ℕ :=
    let db := match store.vectorBackend with
      | .sqliteVec => { world.db with memoryVectors := [] }
      | .focalVector _ => { world.db with memoryEmbeddings := [] }
    ({ world with db := { db with memories := [], indexedDocuments := [] } },
      world.db.memories.length)
  (deleteFromBackend served store.vectorBackend world.db.allIds world).map emptied

end MemoryStore

end FocalDesk.Memory
