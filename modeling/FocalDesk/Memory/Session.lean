import FocalDesk.Memory.Store

/-! A database over time: opened under one backend or the other, used, and opened again. -/
namespace FocalDesk.Memory
open Library List

/-- What is asked of an open store. -/
inductive MemoryCall where
  | remember (served : Bool) (now : ℤ) (text : String) (embedding : Embedding) (metadata : Value)
  | «recall» (served : Bool) (now : ℤ) (queryEmbedding : Embedding)
  | status (served : Bool) (now : ℤ)
  | forget (served : Bool) (id : MemoryId)
  | clear (served : Bool)
  | saveDocument (document : IndexedDocument)
  | document (source : String)
  | documents
  | deleteDocument (source : String)

inductive MemoryEvent where
  | call (call : MemoryCall)
  | openWithPolicy (now : ℤ) (dimension : ℕ) (policy : MemoryPolicy)
  | openFocalVectorWithPolicy (served : Bool) (now : ℤ) (dimension : ℕ) (policy : MemoryPolicy)
      (collection : Option String)

/-- The world after an operation, done or failed. -/
def left : Outcome World → World
  | .ok world => world
  | .error error => error.1

namespace MemoryStore

variable (store : MemoryStore) (world : World)

def perform : MemoryCall → World
  | .remember served now text embedding metadata =>
    left ((store.remember served now text embedding metadata world).map Prod.fst)
  | .recall served now queryEmbedding => left (store.recall served now queryEmbedding world)
  | .status served now => left (store.status served now world)
  | .forget served id => left (store.forget served id world)
  | .clear served => left ((store.clear served world).map Prod.fst)
  | .saveDocument document => { world with db := saveDocument document world.db }
  | .document source => { world with db := (document source world.db).1 }
  | .documents => { world with db := (documents world.db).1 }
  | .deleteDocument source => { world with db := deleteDocument source world.db }

/-- A new memory and the embedding that it was given. -/
def created : MemoryCall → Option (MemoryId × Embedding)
  | .remember _ now text embedding metadata =>
    if embedding.length = store.dimension ∧
        (store.insertMemory now text embedding metadata world.db).isSome = true then
      some (world.db.nextRowid, embedding)
    else none
  | _ => none

end MemoryStore

/-- A world with an open store. Of each memory, `given` has the embedding that it was created with.
Of each saved document, `kept` has the ids that have existed ever since. -/
structure Session where
  world : World
  store : Option MemoryStore
  given : List (MemoryId × Embedding)
  kept : List (String × List MemoryId)

namespace Session

/-- A new database beside a sidecar of any contents. -/
def start (sidecar : String → Option Collection) : Session := ⟨⟨.empty, sidecar⟩, none, [], []⟩

variable (session : Session)

def given' (created : Option (MemoryId × Embedding)) : List (MemoryId × Embedding) :=
  match created with
  | some entry => putKey entry.1 entry.2 session.given
  | none => session.given

/-- The ids that exist no longer are not kept. -/
def keepLive (db : MemoryDb) (kept : List (String × List MemoryId)) :
    List (String × List MemoryId) :=
  kept.map fun entry => (entry.1, entry.2.filter fun id => id ∈ db.allIds)

def saved (call : MemoryCall) : List (String × List MemoryId) :=
  match call with
  | .saveDocument document => putKey document.source document.memoryIds session.kept
  | .deleteDocument source => removeKey source session.kept
  | _ => session.kept

/-- Opening again lets go of the store that is open, also when it fails. -/
def reopen (outcome : Outcome (World × MemoryStore)) : Session :=
  let world := left (outcome.map Prod.fst)
  { session with
    world, store := outcome.toOption.map Prod.snd, kept := keepLive world.db session.kept }

/-- Nothing is called without an open store. -/
def step : MemoryEvent → Option Session
  | .call call => session.store.map fun store =>
    let world := store.perform session.world call
    { session with
      world
      given := session.given' (store.created session.world call)
      kept := keepLive world.db (session.saved call) }
  | .openWithPolicy now dimension policy =>
    some (session.reopen (openWithPolicy now dimension policy session.world))
  | .openFocalVectorWithPolicy served now dimension policy collection => some (session.reopen
      (openFocalVectorWithPolicy served now dimension policy collection session.world))

end Session

/-! What the operations do to the world. -/

/-- An outcome that leaves one thing when it is done and another when it fails. -/
def Ends (done failed : World → Prop) : Outcome World → Prop
  | .ok world => done world
  | .error error => failed error.1

variable {out : Outcome World}

theorem Ends.bind {done done' failed : World → Prop}
    {f : World → Outcome World} (h : Ends done failed out)
    (hf : ∀ world, done world → Ends done' failed (f world)) :
    Ends done' failed (out >>= f) := by
  cases out with
  | ok world => exact hf world h
  | error error => exact h

theorem Ends.mono {done failed done' failed' : World → Prop}
    (h : Ends done failed out) (hd : ∀ world, done world → done' world)
    (hf : ∀ world, failed world → failed' world) : Ends done' failed' out := by
  cases out with
  | ok world => exact hd world h
  | error error => exact hf error.1 h

theorem Ends.left {P : World → Prop} (h : Ends P P out) : P (left out) := by
  cases out with
  | ok world => exact h
  | error error => exact h

/-- What comes with the world does not matter. -/
theorem left_map_fst {α : Type} (out : Outcome World) (f : World → α) :
    Memory.left ((out.map fun world => (world, f world)).map Prod.fst) = Memory.left out := by
  cases out <;> rfl

theorem mem_allIds_filter {db : MemoryDb} {p : MemoryRow → Bool} {id : MemoryId}
    (h : id ∈ (db.memories.filter p).map MemoryRow.id) : id ∈ db.allIds := by
  obtain ⟨row, hr, rfl⟩ := mem_map.mp h
  exact mem_map_of_mem (mem_filter.mp hr).1

theorem not_mem_of_mem_filter {db : MemoryDb} {ids : List MemoryId} {id : MemoryId}
    (h : id ∈ (db.memories.filter fun row => row.id ∉ ids).map MemoryRow.id) : id ∉ ids := by
  obtain ⟨row, hr, rfl⟩ := mem_map.mp h
  exact of_decide_eq_true (mem_filter.mp hr).2

theorem le_foldl_max (ids : List MemoryId) (start : MemoryId) :
    start ≤ ids.foldl max start ∧ ∀ id ∈ ids, id ≤ ids.foldl max start := by
  induction ids generalizing start with
  | nil => exact ⟨le_rfl, by simp⟩
  | cons fst ids ih =>
    obtain ⟨hs, hi⟩ := ih (max start fst)
    refine ⟨(le_max_left _ _).trans hs, fun id hid => ?_⟩
    obtain rfl | hid := mem_cons.mp hid
    · exact (le_max_right _ _).trans hs
    · exact hi id hid

theorem nextRowid_not_mem (db : MemoryDb) : db.nextRowid ∉ db.allIds := by
  intro hm
  have hle := (le_foldl_max db.allIds 0).2 _ hm
  exact (lt_add_one _).not_ge hle

end FocalDesk.Memory
