import FocalDesk.Integer
import FocalDesk.Library.BTreeMap
import FocalDesk.Library.Result

/-! The encrypted secret store: transactions on its database, and how they are persisted. -/
namespace FocalDesk
open Library List

def maxDbBytes : ℕ := 67108864

def maxStoreItems : ℕ := 4096

structure SecretItem where
  id : ℕ
  label : String
  attributes : BTreeMap String String
  secret : List UInt8
  contentType : String
  itemType : String
  created : ℕ
  modified : ℕ
deriving DecidableEq

structure SecretDb where
  nextId : ℕ
  items : List SecretItem
deriving DecidableEq

/-- The database of a store whose file does not exist yet. -/
def SecretDb.fresh : SecretDb := { nextId := 1, items := [] }

/-! The operations of a transaction. -/

structure NewItem where
  label : String
  attributes : BTreeMap String String
  secret : List UInt8
  contentType : String
  itemType : String
  replace : Bool

namespace SecretDb

/-- The ids of the items that a new one replaces. -/
def replaced (db : SecretDb) (new : NewItem) : List ℕ :=
  if new.replace then
    (db.items.filter fun item => item.attributes == new.attributes).map SecretItem.id
  else []

/-- `StoreTransaction::create`. Replaced items are gone also when no id is left for the new one. -/
def create (db : SecretDb) (new : NewItem) (now : ℕ) : SecretDb × Except String (ℕ × List ℕ) :=
  let replaced := db.replaced new
  if maxStoreItems ≤ db.items.length - replaced.length then
    (db, .error "secrets store item limit (4096) reached")
  else
    let items := if replaced.isEmpty then db.items
      else db.items.filter fun item => !replaced.contains item.id
    match checkedSucc db.nextId with
    | none => ({ db with items }, .error "secrets store item id exhausted")
    | some nextId =>
      ({ nextId
         items := items ++
          [{ id := db.nextId, label := new.label, attributes := new.attributes,
             secret := new.secret, contentType := new.contentType, itemType := new.itemType,
             created := now, modified := now }] }, .ok (db.nextId, replaced))

/-- Changes the first item with an id, as `iter_mut().find(..)` does. -/
def modifyFirst (id : ℕ) (change : SecretItem → SecretItem) : List SecretItem → List SecretItem
  | [] => []
  | item :: items =>
    if item.id = id then change item :: items else item :: modifyFirst id change items

def modify (db : SecretDb) (id : ℕ) (change : SecretItem → SecretItem) : SecretDb × Bool :=
  ({ db with items := modifyFirst id change db.items }, db.items.any fun item => item.id == id)

def setSecret (db : SecretDb) (id : ℕ) (secret : List UInt8) (contentType : String) (now : ℕ) :
    SecretDb × Bool :=
  db.modify id fun item => { item with secret, contentType, modified := now }

def setAttributes (db : SecretDb) (id : ℕ) (attributes : BTreeMap String String) (now : ℕ) :
    SecretDb × Bool :=
  db.modify id fun item => { item with attributes, modified := now }

def setLabel (db : SecretDb) (id : ℕ) (label : String) (now : ℕ) : SecretDb × Bool :=
  db.modify id fun item => { item with label, modified := now }

def delete (db : SecretDb) (id : ℕ) : SecretDb × Bool :=
  let items := db.items.filter fun item => item.id ≠ id
  ({ db with items }, items.length ≠ db.items.length)

end SecretDb

/-- A closure passed to `transaction`: a program over the operations of `StoreTransaction` that
may go on by what they return. Operations that set a time carry the time they read. -/
inductive Mutation (τ : Type) where
  | done (result : Except String τ)
  | items (next : List SecretItem → Mutation τ)
  | create (new : NewItem) (now : ℕ) (next : Except String (ℕ × List ℕ) → Mutation τ)
  | setSecret (id : ℕ) (secret : List UInt8) (contentType : String) (now : ℕ)
      (next : Bool → Mutation τ)
  | setAttributes (id : ℕ) (attributes : BTreeMap String String) (now : ℕ)
      (next : Bool → Mutation τ)
  | setLabel (id : ℕ) (label : String) (now : ℕ) (next : Bool → Mutation τ)
  | delete (id : ℕ) (next : Bool → Mutation τ)

/-- What a closure leaves of its database, the ids it was handed out, and its result. -/
structure MutationOutcome (τ : Type) where
  db : SecretDb
  handedOut : List ℕ
  result : Except String τ

/-- The id that a call to `create` hands out. -/
def createdId : Except String (ℕ × List ℕ) → List ℕ
  | .ok (id, _) => [id]
  | .error _ => []

def Mutation.run {τ : Type} : Mutation τ → SecretDb → MutationOutcome τ
  | .done result, db => { db, handedOut := [], result }
  | .items next, db => (next db.items).run db
  | .create new now next, db =>
    let created := db.create new now
    let rest := (next created.2).run created.1
    { rest with handedOut := createdId created.2 ++ rest.handedOut }
  | .setSecret id secret contentType now next, db =>
    let set := db.setSecret id secret contentType now
    (next set.2).run set.1
  | .setAttributes id attributes now next, db =>
    let set := db.setAttributes id attributes now
    (next set.2).run set.1
  | .setLabel id label now next, db =>
    let set := db.setLabel id label now
    (next set.2).run set.1
  | .delete id next, db =>
    let deleted := db.delete id
    (next deleted.2).run deleted.1

/-! The file. -/

/-- The cipher under the key of the store, and the JSON serializer: what they wrote they read
back. A ciphertext is 16 bytes longer than its text. -/
structure SecretCodec where
  encrypt : List UInt8 → List UInt8 → List UInt8
  decrypt : List UInt8 → List UInt8 → Option (List UInt8)
  decrypt_encrypt : ∀ nonce plain, decrypt nonce (encrypt nonce plain) = some plain
  length_encrypt : ∀ nonce plain, (encrypt nonce plain).length = plain.length + 16
  serialize : SecretDb → Except String (List UInt8)
  deserialize : List UInt8 → Except String SecretDb
  deserialize_serialize : ∀ db plain, serialize db = .ok plain → deserialize plain = .ok db

/-- `b"FSDB1"` -/
def secretMagic : List UInt8 := [70, 83, 68, 66, 49]

/-- A random nonce. -/
structure SecretNonce where
  bytes : List UInt8
  length_bytes : bytes.length = 12

def maxStoreError : String := "secrets store exceeds the 67108864 byte encrypted size limit"

variable (codec : SecretCodec)

/-- `Store::decrypt` -/
def decryptDb (raw : List UInt8) : Except String SecretDb :=
  if raw.length < secretMagic.length + 12 ∨ raw.take secretMagic.length ≠ secretMagic then
    .error "secrets.db: bad magic (not a focald-secrets store)"
  else
    match codec.decrypt ((raw.drop 5).take 12) (raw.drop 17) with
    | none => .error "secrets.db: decryption failed (wrong key or corrupt file)"
    | some plain => codec.deserialize plain

/-- The database in the file, if there is one. -/
def readDb : Option (List UInt8) → Except String SecretDb
  | none => .ok SecretDb.fresh
  | some raw => do
    bailIf (maxDbBytes < raw.length) "secrets.db exceeds the 67108864 byte size limit"
    decryptDb codec raw

/-- The database that `Store::open` loads. -/
def loadDb (file : Option (List UInt8)) : Except String SecretDb := do
  let db ← readDb codec file
  bailIf (maxStoreItems < db.items.length)
    ("secrets store contains " ++ toString db.items.length ++ " items; limit is 4096")
  return db

/-! Persisting, with every step that can fail. -/

inductive PersistStep where
  | encrypt
  | createDirectory
  | setDirectoryMode
  | createFile
  | write
  | syncFile
  | rename
  | openDirectory
  | syncDirectory
deriving DecidableEq, Repr

/-- What a call to `persist_db` meets: whether the path has a parent directory and whether that
exists, the nonce, and the steps that fail with their errors. -/
structure PersistSurroundings where
  hasParent : Bool
  directoryExists : Bool
  nonce : SecretNonce
  fails : PersistStep → Option String

/-- A step on the way: an error if it fails. -/
def PersistSurroundings.attempt (around : PersistSurroundings) (step : PersistStep) :
    Except String Unit :=
  match around.fails step with
  | some error => .error error
  | none => .ok ()

/-- Creates the parent directory if there is to be one and it does not exist. -/
def ensureParent (around : PersistSurroundings) : Except String Unit :=
  if around.hasParent = true ∧ around.directoryExists = false then do
    around.attempt .createDirectory
    around.attempt .setDirectoryMode
  else .ok ()

/-- The steps of `persist_db` up to the rename, and the bytes that it puts in place. -/
def prepareFile (db : SecretDb) (around : PersistSurroundings) : Except String (List UInt8) := do
  let plain ← codec.serialize db
  bailIf (maxDbBytes < secretMagic.length + 12 + plain.length + 16) maxStoreError
  around.attempt .encrypt
  ensureParent around
  around.attempt .createFile
  around.attempt .write
  around.attempt .syncFile
  around.attempt .rename
  return secretMagic ++ around.nonce.bytes ++ codec.encrypt around.nonce.bytes plain

/-- The steps of `persist_db` after the rename. -/
def syncParent (around : PersistSurroundings) : Except String Unit :=
  if around.hasParent then do
    around.attempt .openDirectory
    around.attempt .syncDirectory
  else .ok ()

/-- `Store::persist_db`: the file afterwards, and the result. -/
def persistDb (db : SecretDb) (around : PersistSurroundings) (file : Option (List UInt8)) :
    Option (List UInt8) × Except String Unit :=
  match prepareFile codec db around with
  | .error error => (file, .error error)
  | .ok raw => (some raw, syncParent around)

namespace SecretDb

variable {db : SecretDb}

theorem length_modifyFirst (id : ℕ) (ch : SecretItem → SecretItem) (its : List SecretItem) :
    (modifyFirst id ch its).length = its.length := by
  induction its with
  | nil => rfl
  | cons item its ih =>
    simp only [modifyFirst]
    split <;> simp [ih]

/-- At least as many items go as are counted for replacement. -/
theorem length_filter_replaced (db : SecretDb) (new : NewItem) :
    (db.items.filter fun item => !(db.replaced new).contains item.id).length +
      (db.replaced new).length ≤ db.items.length := by
  by_cases hr : new.replace
  · have hsp := length_eq_length_filter_add (l := db.items)
      fun item => item.attributes == new.attributes
    have hm : (db.items.filter fun item => !(db.replaced new).contains item.id).length ≤
        (db.items.filter fun item => !(item.attributes == new.attributes)).length := by
      rw [← countP_eq_length_filter, ← countP_eq_length_filter]
      apply countP_mono_left
      intro item hi hk
      simp only [replaced, if_pos hr] at hk
      by_contra hs
      have hs : (item.attributes == new.attributes) := by simpa using hs
      simp only [Bool.not_eq_true', contains_eq_mem, decide_eq_false_iff_not] at hk
      exact hk (mem_map_of_mem (mem_filter.mpr ⟨hi, hs⟩))
    have hl : (db.replaced new).length =
        (db.items.filter fun item => item.attributes == new.attributes).length := by
      simp [replaced, hr]
    omega
  · have hn : db.replaced new = [] := by simp [replaced, hr]
    simp [hn]

theorem length_create (new : NewItem) (now : ℕ) (h : db.items.length ≤ maxStoreItems) :
    (db.create new now).1.items.length ≤ maxStoreItems := by
  have hf := length_filter_replaced db new
  simp only [create]
  split
  · exact h
  · have hk : (if (db.replaced new).isEmpty then db.items
        else db.items.filter fun item => !(db.replaced new).contains item.id).length +
        (db.replaced new).length ≤ db.items.length := by
      split
      · rename_i he
        rw [List.isEmpty_iff.mp he]
        exact le_rfl
      · exact hf
    split
    · simp only
      omega
    · simp only [length_append, length_singleton]
      omega

theorem length_delete (id : ℕ) : (db.delete id).1.items.length ≤ db.items.length :=
  length_filter_le _ _

end SecretDb

/-- What every operation of a transaction preserves, every closure preserves. -/
theorem Mutation.run_preserves {τ : Type} (Inv : SecretDb → Prop)
    (hc : ∀ db new now, Inv db → Inv (db.create new now).1)
    (hm : ∀ db id ch, (∀ item : SecretItem, (ch item).id = item.id) → Inv db →
      Inv (db.modify id ch).1)
    (hd : ∀ db id, Inv db → Inv (db.delete id).1) (mutation : Mutation τ) {db : SecretDb}
    (h : Inv db) : Inv (mutation.run db).db := by
  induction mutation generalizing db with
  | done res => exact h
  | items next ih => exact ih _ h
  | create new now next ih => exact ih _ (hc _ _ _ h)
  | setSecret id sec ctype now next ih => exact ih _ (hm _ _ _ (fun _ => rfl) h)
  | setAttributes id attrs now next ih => exact ih _ (hm _ _ _ (fun _ => rfl) h)
  | setLabel id l now next ih => exact ih _ (hm _ _ _ (fun _ => rfl) h)
  | delete id next ih => exact ih _ (hd _ _ h)

theorem Mutation.run_limited {τ : Type} (mutation : Mutation τ) {db : SecretDb}
    (h : db.items.length ≤ maxStoreItems) : (mutation.run db).db.items.length ≤ maxStoreItems :=
  mutation.run_preserves (fun db => db.items.length ≤ maxStoreItems)
    (fun _ new now h => SecretDb.length_create new now h)
    (fun _ id ch _ h => (SecretDb.length_modifyFirst id ch _).trans_le h)
    (fun _ id h => (SecretDb.length_delete id).trans h) h

theorem limited_of_loadDb {file : Option (List UInt8)} {db : SecretDb}
    (h : loadDb codec file = .ok db) : db.items.length ≤ maxStoreItems := by
  simp only [loadDb, bind_eq_ok, bailIf_eq_ok, pure_eq_ok] at h
  obtain ⟨db', -, -, hl, rfl⟩ := h
  exact Nat.le_of_not_lt hl

/-- A store in memory, and its file. -/
structure SecretStore where
  db : SecretDb
  file : Option (List UInt8)
  limited : db.items.length ≤ maxStoreItems

namespace SecretStore

/-- `Store::open` -/
def openStore (file : Option (List UInt8)) : Except String SecretStore :=
  match h : loadDb codec file with
  | .error error => .error error
  | .ok db => .ok { db, file, limited := limited_of_loadDb codec h }

/-- `Store::transaction` -/
def transaction {τ : Type} (store : SecretStore) (mutation : Mutation τ)
    (around : PersistSurroundings) : SecretStore × Except String τ :=
  match (mutation.run store.db).result with
  | .error error => (store, .error error)
  | .ok value =>
    match persistDb codec (mutation.run store.db).db around store.file with
    | (file, .error error) => ({ store with file }, .error error)
    | (file, .ok ()) =>
      ({ db := (mutation.run store.db).db, file, limited := mutation.run_limited store.limited },
        .ok value)

end SecretStore

end FocalDesk
