import FocalDesk.Library.Transition
import FocalDesk.Secret.Atomicity

/-! The secret store over whole runs: ids are never handed out twice. -/
namespace FocalDesk
open Library List Except

/-- Ids are distinct and below the next one, and no more items are stored than may be. -/
structure SecretDb.Good (db : SecretDb) : Prop where
  distinct : (db.items.map SecretItem.id).Nodup
  below : ∀ item ∈ db.items, item.id < db.nextId
  limited : db.items.length ≤ maxStoreItems

/-- Transactions and reopenings of one store. -/
inductive SecretEvent (τ : Type) where
  | transaction (mutation : Mutation τ) (around : PersistSurroundings)
  | reopen

/-- A store with the ids that its successful transactions handed out. -/
structure SecretHistory where
  store : SecretStore
  handedOut : List ℕ

variable {τ : Type} {codec : SecretCodec} {db : SecretDb} {around : PersistSurroundings}
  {store : SecretStore} {mutation : Mutation τ} {history history' : SecretHistory}
  {ev : SecretEvent τ} {events : List (SecretEvent τ)}

/-- A transaction that returns Ok gives its caller the ids it created. A store that cannot be
opened takes no further step. -/
def SecretHistory.step (codec : SecretCodec) (history : SecretHistory) :
    SecretEvent τ → Option SecretHistory
  | .transaction mutation around =>
    let after := history.store.transaction codec mutation around
    some
      { store := after.1
        handedOut := history.handedOut ++
          if after.2.isOk then (mutation.run history.store.db).handedOut else [] }
  | .reopen =>
    match SecretStore.openStore codec history.store.file with
    | .error _ => none
    | .ok store => some { history with store }

def SecretHistory.start : SecretHistory := { store := newStore, handedOut := [] }

/-! The operations. -/

namespace SecretDb

theorem map_id_modifyFirst {id : ℕ} {ch : SecretItem → SecretItem} (items : List SecretItem)
    (h : ∀ item : SecretItem, (ch item).id = item.id) :
    (modifyFirst id ch items).map SecretItem.id = items.map SecretItem.id := by
  induction items with
  | nil => rfl
  | cons item items ih =>
    simp only [modifyFirst]
    split
    · simp [h]
    · simp [ih]

theorem good_iff : db.Good ↔ (db.items.map SecretItem.id).Nodup ∧
    (∀ id ∈ db.items.map SecretItem.id, id < db.nextId) ∧ db.items.length ≤ maxStoreItems := by
  constructor
  · intro h
    refine ⟨h.distinct, ?_, h.limited⟩
    intro id hid
    obtain ⟨item, hi, rfl⟩ := mem_map.mp hid
    exact h.below item hi
  · rintro ⟨hd, hb, hl⟩
    exact ⟨hd, fun item hi => hb item.id (mem_map_of_mem hi), hl⟩

theorem Good.modify (h : db.Good) (id : ℕ) {ch : SecretItem → SecretItem}
    (hc : ∀ item : SecretItem, (ch item).id = item.id) : (db.modify id ch).1.Good := by
  rw [good_iff] at h ⊢
  simp only [SecretDb.modify, map_id_modifyFirst _ hc, length_modifyFirst]
  exact h

/-- Removing items keeps a database good. -/
theorem Good.keep (h : db.Good) {items : List SecretItem} (hs : items.Sublist db.items) :
    ({ db with items } : SecretDb).Good := by
  refine ⟨h.distinct.sublist (hs.map _), ?_, hs.length_le.trans h.limited⟩
  intro item hi
  exact h.below item (hs.subset hi)

theorem Good.delete (h : db.Good) (id : ℕ) : (db.delete id).1.Good := h.keep filter_sublist

/-- What `create` does to the ids: it keeps some items and adds one with the next id, or adds
none. -/
theorem create_cases (db : SecretDb) (new : NewItem) (now : ℕ) :
    (∃ items err, items.Sublist db.items ∧ db.create new now = ({ db with items }, .error err)) ∨
    ∃ items item replaced, items.Sublist db.items ∧ item.id = db.nextId ∧
      db.create new now =
        ({ nextId := db.nextId + 1, items := items ++ [item] }, .ok (db.nextId, replaced)) := by
  unfold create
  by_cases hf : maxStoreItems ≤ db.items.length - (db.replaced new).length
  · exact .inl ⟨db.items, _, List.Sublist.refl _, if_pos hf⟩
  · simp only [if_neg hf]
    generalize hi : (if (db.replaced new).isEmpty then db.items
      else db.items.filter fun item => !(db.replaced new).contains item.id) = items
    have hs : items.Sublist db.items := by
      rw [← hi]
      split
      · exact List.Sublist.refl _
      · exact filter_sublist
    cases hn : checkedSucc db.nextId with
    | some next =>
      obtain ⟨-, rfl⟩ := checkedSucc_eq_some.mp hn
      exact .inr ⟨items, _, _, hs, rfl, rfl⟩
    | none => exact .inl ⟨items, _, hs, rfl⟩

theorem Good.create (h : db.Good) (new : NewItem) (now : ℕ) : (db.create new now).1.Good := by
  have hl := length_create new now h.limited
  rcases create_cases db new now with
    ⟨items, err, hs, heq⟩ | ⟨items, item, replaced, hs, hid, heq⟩
  · rw [heq]
    exact h.keep hs
  · rw [heq] at hl ⊢
    have hk := h.keep hs
    refine ⟨?_, ?_, hl⟩
    · rw [map_append, nodup_append]
      refine ⟨hk.distinct, by simp, ?_⟩
      intro id hm other ho
      obtain ⟨kept, hkm, rfl⟩ := mem_map.mp hm
      have hlt : kept.id < db.nextId := hk.below kept hkm
      obtain rfl : other = item.id := by simpa using ho
      omega
    · intro other ho
      rcases mem_append.mp ho with ho | ho
      · have hlt : other.id < db.nextId := hk.below other ho
        exact Nat.lt_succ_of_lt hlt
      · obtain rfl := mem_singleton.mp ho
        exact hid ▸ Nat.lt_succ_self _

theorem nextId_create (db : SecretDb) (new : NewItem) (now : ℕ) :
    (db.create new now).1.nextId = db.nextId ∧ createdId (db.create new now).2 = [] ∨
      (db.create new now).1.nextId = db.nextId + 1 ∧
        createdId (db.create new now).2 = [db.nextId] := by
  rcases create_cases db new now with
    ⟨items, err, -, heq⟩ | ⟨items, item, replaced, -, -, heq⟩ <;> rw [heq]
  · exact .inl ⟨rfl, rfl⟩
  · exact .inr ⟨rfl, rfl⟩

end SecretDb

theorem Mutation.run_good (mutation : Mutation τ) (h : db.Good) : (mutation.run db).db.Good :=
  mutation.run_preserves SecretDb.Good (fun _ new now h => h.create new now)
    (fun _ id _ hc h => h.modify id hc) (fun _ id h => h.delete id) h

/-- The ids that a closure is handed out are new, distinct and used up afterwards. -/
theorem Mutation.run_handedOut (mutation : Mutation τ) (db : SecretDb) :
    db.nextId ≤ (mutation.run db).db.nextId ∧ (mutation.run db).handedOut.Nodup ∧
      ∀ id ∈ (mutation.run db).handedOut, db.nextId ≤ id ∧ id < (mutation.run db).db.nextId := by
  induction mutation generalizing db with
  | done res => simp [Mutation.run]
  | items next ih => exact ih _ db
  | setSecret id sec ctype now next ih =>
    exact ih (db.setSecret id sec ctype now).2 (db.setSecret id sec ctype now).1
  | setAttributes id attrs now next ih =>
    exact ih (db.setAttributes id attrs now).2 (db.setAttributes id attrs now).1
  | setLabel id l now next ih =>
    exact ih (db.setLabel id l now).2 (db.setLabel id l now).1
  | delete id next ih =>
    exact ih (db.delete id).2 (db.delete id).1
  | create new now next ih =>
    obtain ⟨hle, hn, hr⟩ := ih (db.create new now).2 (db.create new now).1
    simp only [Mutation.run]
    rcases SecretDb.nextId_create db new now with ⟨hne, hid⟩ | ⟨hne, hid⟩
    · rw [hne] at hle hr
      rw [hid]
      exact ⟨hle, hn, hr⟩
    · rw [hne] at hle hr
      rw [hid]
      refine ⟨by omega, ?_, ?_⟩
      · refine nodup_cons.mpr ⟨?_, hn⟩
        intro hm
        have := hr db.nextId hm
        omega
      · intro id hm
        rcases mem_cons.mp hm with rfl | hm
        · omega
        · have := hr id hm
          omega

/-! Runs. -/

/-- In memory and in the file there is a good database, and the ids handed out are distinct and
below the next id of both. -/
structure SecretHistory.Sound (codec : SecretCodec) (history : SecretHistory) : Prop where
  memory : history.store.db.Good
  disk : ∃ db, loadDb codec history.store.file = .ok db ∧ db.Good ∧
    ∀ id ∈ history.handedOut, id < db.nextId
  distinct : history.handedOut.Nodup
  below : ∀ id ∈ history.handedOut, id < history.store.db.nextId

theorem good_fresh : SecretDb.fresh.Good := by
  constructor <;> simp [SecretDb.fresh]

theorem sound_start : SecretHistory.start.Sound codec := by
  refine ⟨good_fresh, ⟨SecretDb.fresh, rfl, good_fresh, ?_⟩, nodup_nil, ?_⟩
  · intro id hid
    cases hid
  · intro id hid
    cases hid

theorem SecretHistory.Sound.transaction (h : history.Sound codec) (mutation : Mutation τ)
    (around : PersistSurroundings)
    (hs : history.step codec (.transaction mutation around) = some history') :
    history'.Sound codec := by
  cases hs
  obtain ⟨hn, hno, hr⟩ := mutation.run_handedOut history.store.db
  have hm := mutation.run_good h.memory
  by_cases hc : Commits codec history.store mutation around
  · obtain ⟨hl, ⟨⟨err, he⟩, -, hdb⟩ | ⟨hre, -, hdb⟩⟩ := transaction_of_commits hc
    · -- The directory was not synced: memory keeps the old database, the file has the new one.
      simp only [he, isOk, Except.toBool, Bool.false_eq_true, if_false, append_nil]
      refine ⟨hdb ▸ h.memory, ⟨_, hl, hm, ?_⟩, h.distinct, hdb ▸ h.below⟩
      intro id hid
      exact (h.below id hid).trans_le hn
    · have hok := hc.1
      simp only [hre, hok, if_true]
      have hb : ∀ id ∈ history.handedOut ++ (mutation.run history.store.db).handedOut,
          id < (mutation.run history.store.db).db.nextId := by
        intro id hid
        rcases mem_append.mp hid with hid | hid
        · exact (h.below id hid).trans_le hn
        · exact (hr id hid).2
      refine ⟨hdb ▸ hm, ⟨_, hl, hm, hb⟩, ?_, hdb ▸ hb⟩
      refine nodup_append.mpr ⟨h.distinct, hno, ?_⟩
      intro id hid other ho
      have hlt := h.below id hid
      have hge := (hr other ho).1
      omega
  · obtain ⟨err, htx⟩ := transaction_of_not_commits hc
    simp only [htx, isOk, Except.toBool, Bool.false_eq_true, if_false, append_nil]
    exact h

theorem openStore_of_loadDb {file : Option (List UInt8)} (h : loadDb codec file = .ok db) :
    ∃ store, SecretStore.openStore codec file = .ok store ∧ store.db = db ∧ store.file = file := by
  unfold SecretStore.openStore
  split
  case h_1 error he =>
    rw [h] at he
    cases he
  case h_2 loaded hl => exact ⟨_, rfl, ok.inj (hl.symm.trans h), rfl⟩

theorem SecretHistory.Sound.reopen (h : history.Sound codec)
    (hs : history.step codec (.reopen : SecretEvent τ) = some history') :
    history'.Sound codec := by
  obtain ⟨db, hl, hg, hb⟩ := h.disk
  obtain ⟨store, ho, hdb, hf⟩ := openStore_of_loadDb hl
  simp only [SecretHistory.step, ho] at hs
  cases hs
  exact ⟨hdb ▸ hg, ⟨db, hf ▸ hl, hg, hb⟩, h.distinct, hdb ▸ hb⟩

theorem step_sound (hs : history.step codec ev = some history') (h : history.Sound codec)
    : history'.Sound codec := by
  cases ev with
  | transaction mutation around => exact h.transaction mutation around hs
  | reopen => exact h.reopen hs

/-- In every run of transactions and reopenings the ids of the stored items are distinct and below
the next one, at most 4096 items are stored, no id is handed out twice, the file can be reopened,
and what a transaction persists successfully reopens to the same database. -/
theorem secret_ids_unique (codec : SecretCodec)
    (h : run (SecretHistory.step codec) SecretHistory.start events = some history) :
    history.store.db.Good ∧
      (∀ id ∈ history.handedOut, id < history.store.db.nextId) ∧ history.handedOut.Nodup ∧
      (∃ reopened, SecretStore.openStore codec history.store.file = .ok reopened ∧
        reopened.db.Good ∧ ∀ id ∈ history.handedOut, id < reopened.db.nextId) ∧
      ∀ (mutation : Mutation τ) around value,
        (history.store.transaction codec mutation around).2 = .ok value →
        ∃ reopened, SecretStore.openStore codec
            (history.store.transaction codec mutation around).1.file = .ok reopened ∧
          reopened.db = (history.store.transaction codec mutation around).1.db ∧
          reopened.db = (mutation.run history.store.db).db := by
  have hs : history.Sound codec := run_invariant step_sound h sound_start
  obtain ⟨db, hl, hg, hb⟩ := hs.disk
  obtain ⟨reopened, ho, hdb, -⟩ := openStore_of_loadDb hl
  refine ⟨hs.memory, hs.below, hs.distinct, ⟨reopened, ho, hdb ▸ hg, hdb ▸ hb⟩, ?_⟩
  intro mutation around value hv
  by_cases hc : Commits codec history.store mutation around
  · obtain ⟨hl, ⟨⟨err, he⟩, -, -⟩ | ⟨-, -, hdb⟩⟩ := transaction_of_commits hc
    · rw [he] at hv
      cases hv
    · obtain ⟨reopened, ho, hsa, -⟩ := openStore_of_loadDb hl
      exact ⟨reopened, ho, hsa.trans hdb.symm, hsa⟩
  · obtain ⟨err, ht⟩ := transaction_of_not_commits hc
    rw [ht] at hv
    cases hv

def nothingFails : PersistSurroundings := { syncFails with fails := fun _ => none }

/-- A note is created after the directory could not be synced, and the store is reopened. -/
def noteEvents : List (SecretEvent Unit) :=
  [.transaction createNote syncFails, .transaction createNote nothingFails, .reopen]

theorem secret_ids_unique_sample : ∃ history,
    run (SecretHistory.step noteCodec) SecretHistory.start noteEvents = some history ∧
      history.handedOut = [1] ∧ history.store.db.Good := by
  obtain ⟨history, hr, hi⟩ : ∃ history,
      run (SecretHistory.step noteCodec) SecretHistory.start noteEvents = some history ∧
        (history.handedOut == [1]) = true := by
    rw [noteCodec_eq]
    exact exists_run_of_any (by decide +kernel)
  exact ⟨history, hr, eq_of_beq hi, (secret_ids_unique noteCodec hr).1⟩

end FocalDesk
