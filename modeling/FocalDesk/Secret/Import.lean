import FocalDesk.Secret.Sync

/-! Imports from GNOME Keyring that are made again. -/
namespace FocalDesk
open Library List Except

/-- `Item.SetAttributes`, `Item.SetSecret` and `Item.SetLabel`. -/
inductive ItemChange where
  | attributes (attributes : BTreeMap String String)
  | secret (secret : List UInt8) (contentType : String)
  | label (label : String)

def ItemChange.method : ItemChange → ItemMethod
  | .attributes new => .setAttributes new
  | .secret new contentType => .setSecret new contentType
  | .label new => .setLabel new

inductive KeyringEvent where
  | change (id : ℕ) (change : ItemChange) (session : Except SsError Unit) (now : ℕ)
      (around : PersistSurroundings)
  | apply (items : List ImportedItem) (now : ℕ) (around : PersistSurroundings)
  /-- The next process opens the file. -/
  | reopen

/-- An item is marked as the copy of the one at this path. -/
def SecretDb.Tagged (db : SecretDb) (path : String) : Prop :=
  ∃ item ∈ db.items, item.attributes[sourceAttr]? = some ("gnome-keyring:" ++ path)

variable (codec : SecretCodec) {codec}

namespace SecretStore

def keyring (codec : SecretCodec) (store : SecretStore) : KeyringEvent → Option SecretStore
  | .change id change session now around =>
    some (serveItem codec store session now around id change.method).1
  | .apply items now around => some (importInto codec store items now around).1
  | .reopen => (openStore codec store.file).toOption

/-- An import hands out no id and leaves the items as they are. -/
def ImportsNothing (codec : SecretCodec) (store : SecretStore) (items : List ImportedItem) (now : ℕ)
    (around : PersistSurroundings) : Prop :=
  let after := importInto codec store items now around
  after.2 = [] ∧ after.1.db = store.db ∧
    (after.1.file = store.file ∨ loadDb codec after.1.file = .ok store.db)

/-- An import that fails leaves the store and its file as they are. -/
def FailsClean (codec : SecretCodec) (store : SecretStore) (items : List ImportedItem) (now : ℕ)
    (around : PersistSurroundings) : Prop :=
  let after := store.transaction codec (importMutation now items) around
  (∃ error, after.2 = .error error) →
    after.1.db = store.db ∧ loadDb codec after.1.file = loadDb codec store.file

/-- A `SetAttributes` that is stored leaves the tag of every path on some item. -/
def KeepsTags (codec : SecretCodec) (paths : List String) (store : SecretStore) :
    KeyringEvent → Prop
  | .change id (.attributes attributes) _ now around =>
    validatePublicAttributes attributes = .ok () →
      Commits codec store (.setAttributes id attributes now fun _ => .done (.ok () : Except _ Unit))
        around →
      ∀ path ∈ paths, ∃ item ∈ store.db.items,
        item.attributes[sourceAttr]? = some ("gnome-keyring:" ++ path) ∧
          (item.id = id → attributes[sourceAttr]? = some ("gnome-keyring:" ++ path))
  | _ => True

/-- The paths are marked in memory and in what the file loads to. -/
def Tagged (codec : SecretCodec) (store : SecretStore) (paths : List String) : Prop :=
  ∀ path ∈ paths, store.db.Tagged path ∧ ∀ db, loadDb codec store.file = .ok db → db.Tagged path

end SecretStore

namespace SecretDb

variable {db : SecretDb} {path : String}

theorem isStored_iff {item : ImportedItem} :
    item.isStored db.items ↔ db.Tagged item.sourcePath := by
  simp [ImportedItem.isStored, Tagged]

theorem kept_modifyFirst (id : ℕ) (ch : SecretItem → SecretItem) {item : SecretItem}
    {items : List SecretItem} (h : item ∈ items) : item ∈ modifyFirst id ch items ∨
      item.id = id ∧ ch item ∈ modifyFirst id ch items := by
  induction items with
  | nil => cases h
  | cons i items ih =>
    simp only [modifyFirst]
    split
    case isTrue hi =>
      rcases mem_cons.mp h with rfl | h
      · exact .inr ⟨hi, mem_cons_self⟩
      · exact .inl (mem_cons_of_mem _ h)
    case isFalse =>
      rcases mem_cons.mp h with rfl | h
      · exact .inl mem_cons_self
      · exact (ih h).imp (mem_cons_of_mem _) fun h => ⟨h.1, mem_cons_of_mem _ h.2⟩

theorem tagged_modify {id : ℕ} {ch : SecretItem → SecretItem} (h : ∃ item ∈ db.items,
    item.attributes[sourceAttr]? = some ("gnome-keyring:" ++ path) ∧ (item.id = id →
      (ch item).attributes[sourceAttr]? = some ("gnome-keyring:" ++ path))) :
    (db.modify id ch).1.Tagged path := by
  obtain ⟨item, hi, ht, hc⟩ := h
  rcases kept_modifyFirst id ch hi with hm | ⟨he, hm⟩
  · exact ⟨item, hm, ht⟩
  · exact ⟨ch item, hm, hc he⟩

/-- What `create` does to an imported item: it appends the copy, or nothing. -/
theorem create_newItem (db : SecretDb) (item : ImportedItem) (now : ℕ) :
    (∃ err, db.create item.newItem now = (db, .error err)) ∨
      ∃ copy result, (db.create item.newItem now).2 = .ok result ∧
        (db.create item.newItem now).1.items = db.items ++ [copy] ∧
        copy.attributes[sourceAttr]? = some ("gnome-keyring:" ++ item.sourcePath) := by
  have hr : db.replaced item.newItem = [] := rfl
  simp only [create, hr, isEmpty_nil, if_true]
  split
  · exact .inl ⟨_, rfl⟩
  · split
    · exact .inl ⟨_, rfl⟩
    · exact .inr ⟨_, _, rfl, rfl, by simp [ImportedItem.newItem]⟩

end SecretDb

section
variable {db : SecretDb} {its : List ImportedItem} {now : ℕ}

theorem run_importMutation_of_tagged (h : ∀ item ∈ its, db.Tagged item.sourcePath) :
    (importMutation now its).run db = { db, handedOut := [], result := .ok () } := by
  induction its with
  | nil => rfl
  | cons item its ih =>
    obtain ⟨ht, hs⟩ := forall_mem_cons.mp h
    simp only [importMutation, Mutation.run, if_pos (SecretDb.isStored_iff.mpr ht), ih hs]

theorem tagged_importMutation {path : String} (h : db.Tagged path) :
    ((importMutation now its).run db).db.Tagged path := by
  induction its generalizing db with
  | nil => exact h
  | cons item its ih =>
    simp only [importMutation, Mutation.run]
    split
    · exact ih h
    · rcases db.create_newItem item now with ⟨err, hc⟩ | ⟨copy, result, hc, hi, -⟩
      · simp only [Mutation.run, hc]
        exact h
      · simp only [Mutation.run, hc]
        obtain ⟨old, ho, ht⟩ := h
        exact ih ⟨old, hi ▸ mem_append_left _ ho, ht⟩

/-- An import that succeeds leaves a copy of each of its items. -/
theorem tagged_of_importMutation (h : ((importMutation now its).run db).result = .ok ()) :
    ∀ item ∈ its, ((importMutation now its).run db).db.Tagged item.sourcePath := by
  induction its generalizing db with
  | nil => simp
  | cons item its ih =>
    simp only [importMutation, Mutation.run] at h ⊢
    split
    case isTrue hs =>
      rw [if_pos hs] at h
      exact forall_mem_cons.mpr ⟨tagged_importMutation (SecretDb.isStored_iff.mp hs), ih h⟩
    case isFalse hs =>
      rw [if_neg hs] at h
      rcases db.create_newItem item now with ⟨err, hc⟩ | ⟨copy, result, hc, hi, ht⟩
      · simp [Mutation.run, hc] at h
      · simp only [Mutation.run, hc] at h ⊢
        refine forall_mem_cons.mpr ⟨tagged_importMutation ⟨copy, ?_, ht⟩, ih h⟩
        exact hi ▸ mem_append_right _ mem_cons_self

end

namespace SecretStore

variable {sto sto' : SecretStore} {ps : List String} {env : PersistSurroundings}

theorem Tagged.transaction {τ : Type} {mutation : Mutation τ} (h : sto.Tagged codec ps)
    (hm : Commits codec sto mutation env → ∀ path ∈ ps, (mutation.run sto.db).db.Tagged path) :
    (sto.transaction codec mutation env).1.Tagged codec ps := by
  by_cases hc : Commits codec sto mutation env
  · intro path hp
    have ht := hm hc path hp
    obtain ⟨hl, ⟨-, -, hdb⟩ | ⟨-, -, hdb⟩⟩ := transaction_of_commits hc
    · exact ⟨hdb ▸ (h path hp).1, fun db hload => ok.inj (hl.symm.trans hload) ▸ ht⟩
    · exact ⟨hdb ▸ ht, fun db hload => ok.inj (hl.symm.trans hload) ▸ ht⟩
  · obtain ⟨err, ht⟩ := transaction_of_not_commits hc
    rw [ht]
    exact h

theorem persistBus_fst {τ : Type} (mutation : Mutation τ) (fail : String → SsError)
    (reply : τ → BusReply) : (persistBus codec sto env mutation fail reply).1 =
      (sto.transaction codec mutation env).1 := by
  unfold persistBus
  split <;> rename_i h <;> rw [h]

theorem Tagged.serveItem (h : sto.Tagged codec ps) {id now : ℕ} {ch : ItemChange}
    {sess : Except SsError Unit}
    (hk : sto.KeepsTags codec ps (.change id ch sess now env)) :
    (serveItem codec sto sess now env id ch.method).1.Tagged codec ps := by
  have hkept (ch : SecretItem → SecretItem)
      (hc : ∀ item, (ch item).attributes = item.attributes) :
      ∀ path ∈ ps, (sto.db.modify id ch).1.Tagged path := by
    intro path hp
    obtain ⟨item, hi, ht⟩ := (h path hp).1
    exact SecretDb.tagged_modify ⟨item, hi, ht, fun _ => hc item ▸ ht⟩
  cases ch with
  | attributes attributes =>
    simp only [ItemChange.method, FocalDesk.serveItem]
    split
    · exact h
    · rename_i hv
      split
      · exact h
      · rw [persistBus_fst]
        refine h.transaction fun hc path hp => SecretDb.tagged_modify ?_
        exact hk hv hc path hp
  | secret secret ctype =>
    simp only [ItemChange.method, FocalDesk.serveItem]
    split
    · exact h
    · split
      · exact h
      · split
        · exact h
        · rw [persistBus_fst]
          exact h.transaction fun _ => hkept _ fun _ => rfl
  | label label =>
    simp only [ItemChange.method, FocalDesk.serveItem]
    split
    · exact h
    · split
      · exact h
      · rw [persistBus_fst]
        exact h.transaction fun _ => hkept _ fun _ => rfl

theorem importInto_fst (items : List ImportedItem) (now : ℕ) :
    (importInto codec sto items now env).1 =
      (sto.transaction codec (importMutation now items) env).1 := by
  unfold importInto
  split <;> rename_i h <;> rw [h]

theorem step_tagged {ev : KeyringEvent} (hs : sto.keyring codec ev = some sto')
    (hk : sto.KeepsTags codec ps ev) (h : sto.Tagged codec ps) :
    sto'.Tagged codec ps := by
  cases ev with
  | change id change sess now env =>
    cases hs
    exact h.serveItem hk
  | apply items now env =>
    cases hs
    rw [importInto_fst]
    exact h.transaction fun _ path hp => tagged_importMutation (h path hp).1
  | reopen =>
    simp only [keyring, toOption_eq_some, openStore] at hs
    split at hs
    · cases hs
    · rename_i db hl
      cases hs
      exact fun path hp => ⟨(h path hp).2 db hl, (h path hp).2⟩

theorem Tagged.importsNothing (h : sto.Tagged codec ps) {items : List ImportedItem}
    (hi : ∀ item ∈ items, item.sourcePath ∈ ps) (now : ℕ) :
    sto.ImportsNothing codec items now env := by
  have hr : (importMutation now items).run sto.db =
      { db := sto.db, handedOut := [], result := .ok () } :=
    run_importMutation_of_tagged fun item hm => (h _ (hi item hm)).1
  have ht := transaction_cases codec sto (importMutation now items) env
  rw [hr] at ht
  refine ⟨?_, ?_, ?_⟩
  · unfold importInto
    split
    · rw [hr]
    · rfl
  · rw [importInto_fst]
    rcases ht with ⟨-, hdb, -⟩ | ⟨-, -, -, hdb, -⟩ <;> exact hdb
  · rw [importInto_fst]
    rcases ht with ⟨-, -, hf⟩ | ⟨-, -, -, -, hl⟩
    · exact hf
    · exact .inr hl

end SecretStore

/-- An import that fails imports nothing exactly unless its file was put in place before opening
or syncing the directory failed. After one that succeeds, imports of the same paths import nothing
in every run of imports, restarts and changes to items that leave each of its tags on some item. -/
theorem import_idempotent (codec : SecretCodec) (store : SecretStore) (batch : List ImportedItem)
    (now : ℕ) (around : PersistSurroundings) :
    (store.FailsClean codec batch now around ↔
      ¬ (Commits codec store (importMutation now batch) around ∧ DirectoryFails around ∧
        loadDb codec store.file ≠ .ok ((importMutation now batch).run store.db).db)) ∧
    ((store.transaction codec (importMutation now batch) around).2 = .ok () →
      ∀ events later, Meets (SecretStore.keyring codec)
          (SecretStore.KeepsTags codec (batch.map ImportedItem.sourcePath))
          (store.transaction codec (importMutation now batch) around).1 events →
        run (SecretStore.keyring codec)
          (store.transaction codec (importMutation now batch) around).1 events = some later →
        ∀ items now around, (∀ item ∈ items, item.sourcePath ∈ batch.map ImportedItem.sourcePath) →
          later.ImportsNothing codec items now around) := by
  constructor
  · rw [← transaction_atomic_iff]
    rcases transaction_cases codec store (importMutation now batch) around with
      ⟨⟨err, he⟩, -⟩ | ⟨v, hv, hr, hdb, hl⟩
    · simp [SecretStore.FailsClean, TransactionAtomic, he]
    · simp [SecretStore.FailsClean, TransactionAtomic, hv, hdb, hl]
  · intro hok events later hm hr items now' around' hi
    have hfirst : (store.transaction codec (importMutation now batch) around).1.Tagged codec
        (batch.map ImportedItem.sourcePath) := by
      rcases transaction_cases codec store (importMutation now batch) around with
        ⟨⟨err, he⟩, -⟩ | ⟨v, -, hv, hdb, hl⟩
      · rw [he] at hok
        cases hok
      · intro path hp
        obtain ⟨item, hb, rfl⟩ := mem_map.mp hp
        have ht := tagged_of_importMutation hv item hb
        exact ⟨hdb ▸ ht, fun db hd => ok.inj (hl.symm.trans hd) ▸ ht⟩
    exact (run_invariant_of_meets SecretStore.step_tagged hm hr hfirst).importsNothing hi now'

/-! An item that loses its tag. -/

/-- A serializer of some databases, with the cipher of `noteCodec`. -/
def tableCodec (table : List (SecretDb × List UInt8)) (h : (table.map Prod.snd).Nodup) :
    SecretCodec where
  encrypt := noteCodec.encrypt
  decrypt := noteCodec.decrypt
  decrypt_encrypt := noteCodec.decrypt_encrypt
  length_encrypt := noteCodec.length_encrypt
  serialize db := ((table.find? fun e => e.1 == db).map Prod.snd).elim (.error "not in the table") .ok
  deserialize plain :=
    ((table.find? fun e => e.2 == plain).map Prod.fst).elim (.error "not in the table") .ok
  deserialize_serialize db plain hs := by
    cases hf : table.find? fun e => e.1 == db with
    | none => simp [hf] at hs
    | some e =>
      obtain rfl : e.2 = plain := by simpa [hf] using hs
      cases hf' : table.find? fun e' => e'.2 == e.2 with
      | none => simpa using List.find?_eq_none.mp hf' e (List.mem_of_find?_eq_some hf)
      | some e' =>
        obtain rfl : e' = e := List.inj_on_of_nodup_map h (List.mem_of_find?_eq_some hf')
          (List.mem_of_find?_eq_some hf) (by simpa using List.find?_some hf')
        simpa using List.find?_some hf

def keyringNote : ImportedItem :=
  { sourcePath := "/1", label := "note", attributes := ∅, secret := [], contentType := "text/plain"
    itemType := "org.freedesktop.Secret.Generic" }

def copiedNote : SecretItem := { blankNote with attributes := keyringNote.newItem.attributes }

/-- The JSON text of the copy with an id. -/
def copiedNoteJson (id : String) : List UInt8 :=
  utf8 "\x7b\"id\":" ++ utf8 id ++ utf8 ",\"label\":\"note\",\"attributes\":" ++
    utf8 "\x7b\"focald:import-source\":\"gnome-keyring:/1\"\x7d," ++
    utf8 "\"secret\":\"\",\"content_type\":\"text/plain\"," ++
    utf8 "\"item_type\":\"org.freedesktop.Secret.Generic\"," ++
    utf8 "\"created\":100,\"modified\":100\x7d"

/-- The note is imported, loses its tag, and is imported again. -/
def copiesCodec : SecretCodec :=
  tableCodec
    [({ nextId := 2, items := [copiedNote] },
        utf8 "\x7b\"next_id\":2,\"items\":[" ++ copiedNoteJson "1" ++ utf8 "]\x7d"),
      ({ nextId := 2, items := [blankNote] }, oneNoteJson),
      ({ nextId := 3, items := [blankNote, { copiedNote with id := 2 }] },
        utf8 "\x7b\"next_id\":3,\"items\":[" ++ blankNoteJson "1" ++ utf8 "," ++
          copiedNoteJson "2" ++ utf8 "]\x7d")]
    (by decide +kernel)

/-- A client replaces the attributes of the copy, and the next import makes a second one. -/
theorem untagged_item_imported_again :
    ¬ ∀ (codec : SecretCodec) (store : SecretStore) (batch : List ImportedItem) (now : ℕ)
      (around : PersistSurroundings),
      (store.transaction codec (importMutation now batch) around).2 = .ok () →
      ∀ events later, run (SecretStore.keyring codec)
          (store.transaction codec (importMutation now batch) around).1 events = some later →
        ∀ items now around, (∀ item ∈ items, item.sourcePath ∈ batch.map ImportedItem.sourcePath) →
          later.ImportsNothing codec items now around := by
  intro h
  obtain ⟨u, hok⟩ := exists_of_toBool (x := (newStore.transaction copiesCodec
    (importMutation 100 [keyringNote]) nothingFails).2) (by decide +kernel)
  obtain ⟨hnone, -⟩ := h copiesCodec newStore [keyringNote] 100 nothingFails hok
    [.change 1 (.attributes ∅) (.ok ()) 100 nothingFails] _ rfl [keyringNote] 100 nothingFails
    (by simp)
  exact absurd hnone (by decide +kernel)

end FocalDesk
