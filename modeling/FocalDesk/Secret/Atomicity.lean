import FocalDesk.Secret.Store

/-! When a failed transaction leaves the secret store as it was. -/
namespace FocalDesk
open Library List

variable {τ : Type} {codec : SecretCodec} {db : SecretDb} {around : PersistSurroundings}
  {raw : List UInt8} {store : SecretStore} {mutation : Mutation τ}

/-- Everything up to the rename succeeds, and the database fits into the file. -/
structure Replaces (codec : SecretCodec) (db : SecretDb) (around : PersistSurroundings) : Prop where
  fits : ∃ plain, codec.serialize db = .ok plain ∧
    secretMagic.length + 12 + plain.length + 16 ≤ maxDbBytes
  steps : ∀ step ∈ [PersistStep.encrypt, .createFile, .write, .syncFile, .rename],
    around.fails step = none
  directory : around.hasParent = true → around.directoryExists = false →
    around.fails .createDirectory = none ∧ around.fails .setDirectoryMode = none

/-- The parent directory cannot be opened or synced. -/
def DirectoryFails (around : PersistSurroundings) : Prop :=
  around.hasParent = true ∧
    (around.fails .openDirectory ≠ none ∨ around.fails .syncDirectory ≠ none)

theorem attempt_eq_ok {step : PersistStep} {u : Unit} :
    around.attempt step = .ok u ↔ around.fails step = none := by
  unfold PersistSurroundings.attempt
  cases around.fails step <;> simp

theorem ensureParent_eq_ok {u : Unit} : ensureParent around = .ok u ↔
    (around.hasParent → around.directoryExists = false →
      around.fails .createDirectory = none ∧ around.fails .setDirectoryMode = none) := by
  unfold ensureParent
  by_cases hc : around.hasParent ∧ around.directoryExists = false
  · rw [if_pos hc, unit_bind_eq_ok, attempt_eq_ok, attempt_eq_ok]
    simp only [hc.1, hc.2, true_imp_iff]
  · rw [if_neg hc]
    refine iff_of_true rfl ?_
    intro hp he
    exact absurd ⟨hp, he⟩ hc

theorem prepareFile_eq_ok : prepareFile codec db around = .ok raw ↔ Replaces codec db around ∧
    ∃ plain, codec.serialize db = .ok plain ∧
      secretMagic ++ around.nonce.bytes ++ codec.encrypt around.nonce.bytes plain = raw := by
  simp only [prepareFile, bind_eq_ok, attempt_eq_ok, bailIf_eq_ok, ensureParent_eq_ok, pure_eq_ok]
  constructor
  · rintro ⟨plain, hp, -, hsi, -, he, -, hd, -, hc, -, hw, -, hs, -,
      hr, hra⟩
    refine ⟨⟨⟨plain, hp, by omega⟩, ?_, hd⟩, plain, hp, hra⟩
    simp [he, hc, hw, hs, hr]
  · rintro ⟨h, plain, hp, hra⟩
    obtain ⟨plain', hp', hsi⟩ := h.fits
    obtain rfl := Except.ok.inj (hp'.symm.trans hp)
    have hst := h.steps
    simp only [forall_mem_cons] at hst
    obtain ⟨he, hc, hw, hs, hr, -⟩ := hst
    exact ⟨plain', hp, (), by omega, (), he, (), h.directory, (), hc, (), hw, (), hs, (), hr, hra⟩

theorem exists_prepareFile (h : Replaces codec db around) :
    ∃ raw, prepareFile codec db around = .ok raw := by
  obtain ⟨plain, hp, -⟩ := h.fits
  exact ⟨_, (prepareFile_eq_ok).mpr ⟨h, plain, hp, rfl⟩⟩

theorem syncParent_eq_ok {u : Unit} : syncParent around = .ok u ↔ ¬ DirectoryFails around := by
  unfold syncParent DirectoryFails
  by_cases hp : around.hasParent
  · simp only [hp, if_true, unit_bind_eq_ok, attempt_eq_ok, true_and, not_or, not_not]
  · simp [hp]

/-- What was prepared for the file is what a later `open` loads. -/
theorem loadDb_of_prepareFile (h : prepareFile codec db around = .ok raw)
    (hl : db.items.length ≤ maxStoreItems) : loadDb codec (some raw) = .ok db := by
  obtain ⟨hr, plain, hp, rfl⟩ := (prepareFile_eq_ok).mp h
  obtain ⟨plain', hp', hsi⟩ := hr.fits
  obtain rfl := Except.ok.inj (hp'.symm.trans hp)
  have hm : secretMagic.length = 5 := rfl
  have hn := around.nonce.length_bytes
  have hci := codec.length_encrypt around.nonce.bytes plain'
  generalize around.nonce.bytes = nonce at hn hci ⊢
  have hle : (secretMagic ++ nonce ++ codec.encrypt nonce plain').length =
      5 + 12 + (plain'.length + 16) := by
    simp only [length_append, hn, hm, hci]
  have ht : (secretMagic ++ nonce ++ codec.encrypt nonce plain').take secretMagic.length =
      secretMagic := by
    rw [append_assoc, take_left]
  have hnb : ((secretMagic ++ nonce ++ codec.encrypt nonce plain').drop 5).take 12 =
      nonce := by
    rw [append_assoc, drop_left' hm, take_left' hn]
  have hc : (secretMagic ++ nonce ++ codec.encrypt nonce plain').drop 17 =
      codec.encrypt nonce plain' := by
    rw [drop_left']
    simp only [length_append, hn, hm]
  have hd : decryptDb codec (secretMagic ++ nonce ++ codec.encrypt nonce plain') =
      .ok db := by
    unfold decryptDb
    rw [if_neg, hnb, hc, codec.decrypt_encrypt]
    · exact codec.deserialize_serialize db plain' hp
    · rintro (hs | hm')
      · omega
      · exact hm' ht
  simp only [loadDb, readDb, bind_eq_ok, bailIf_eq_ok, pure_eq_ok]
  exact ⟨db, ⟨(), by omega, hd⟩, (), by omega, rfl⟩

/-! Transactions. -/

/-- All of a transaction or nothing: after an error both databases are the ones from before,
otherwise both are the mutated one. -/
def TransactionAtomic (codec : SecretCodec) (store : SecretStore) (mutation : Mutation τ)
    (around : PersistSurroundings) : Prop :=
  let after := (store.transaction codec mutation around).1
  match (store.transaction codec mutation around).2 with
  | .error _ => after.db = store.db ∧ loadDb codec after.file = loadDb codec store.file
  | .ok _ => after.db = (mutation.run store.db).db ∧
      loadDb codec after.file = .ok (mutation.run store.db).db

/-- The closure returns Ok and the file is replaced. -/
def Commits (codec : SecretCodec) (store : SecretStore) (mutation : Mutation τ)
    (around : PersistSurroundings) : Prop :=
  (mutation.run store.db).result.isOk = true ∧ Replaces codec (mutation.run store.db).db around

theorem transaction_of_not_commits (h : ¬ Commits codec store mutation around) :
    ∃ error, store.transaction codec mutation around = (store, .error error) := by
  unfold SecretStore.transaction
  split
  case h_1 error he => exact ⟨error, rfl⟩
  case h_2 value hv =>
    cases hp : prepareFile codec (mutation.run store.db).db around with
    | error error =>
      refine ⟨error, ?_⟩
      simp only [persistDb, hp]
    | ok raw =>
      refine absurd ⟨?_, ((prepareFile_eq_ok).mp hp).1⟩ h
      rw [hv]
      rfl

/-- Once the file is replaced it loads to the mutated database, whether or not the transaction
goes on to succeed. -/
theorem transaction_of_commits (h : Commits codec store mutation around) :
    loadDb codec (store.transaction codec mutation around).1.file =
        .ok (mutation.run store.db).db ∧
      ((∃ error, (store.transaction codec mutation around).2 = .error error) ∧
          DirectoryFails around ∧ (store.transaction codec mutation around).1.db = store.db ∨
        (store.transaction codec mutation around).2 = (mutation.run store.db).result ∧
          ¬ DirectoryFails around ∧
          (store.transaction codec mutation around).1.db = (mutation.run store.db).db) := by
  obtain ⟨hok, hr⟩ := h
  obtain ⟨raw, hp⟩ := exists_prepareFile hr
  have hl := loadDb_of_prepareFile hp (mutation.run_limited store.limited)
  unfold SecretStore.transaction
  split
  case h_1 error he =>
    rw [he] at hok
    cases hok
  case h_2 value hv =>
    simp only [persistDb, hp]
    cases hs : syncParent around with
    | error error =>
      refine ⟨hl, .inl ⟨⟨error, rfl⟩, ?_, rfl⟩⟩
      by_contra hd
      rw [(syncParent_eq_ok (u := ())).mpr hd] at hs
      cases hs
    | ok u => exact ⟨hl, .inr ⟨hv.symm, (syncParent_eq_ok).mp hs, rfl⟩⟩

/-- A transaction that fails leaves the database as it was, and maybe a new file; one that
succeeds leaves the mutated database in both. -/
theorem transaction_cases (codec : SecretCodec) (store : SecretStore) (mutation : Mutation τ)
    (around : PersistSurroundings) :
    (∃ error, (store.transaction codec mutation around).2 = .error error) ∧
        (store.transaction codec mutation around).1.db = store.db ∧
        ((store.transaction codec mutation around).1.file = store.file ∨
          loadDb codec (store.transaction codec mutation around).1.file =
            .ok (mutation.run store.db).db) ∨
      ∃ v, (store.transaction codec mutation around).2 = .ok v ∧
        (mutation.run store.db).result = .ok v ∧
        (store.transaction codec mutation around).1.db = (mutation.run store.db).db ∧
        loadDb codec (store.transaction codec mutation around).1.file =
          .ok (mutation.run store.db).db := by
  by_cases hc : Commits codec store mutation around
  · obtain ⟨hl, ⟨he, -, hdb⟩ | ⟨hre, -, hdb⟩⟩ := transaction_of_commits hc
    · exact .inl ⟨he, hdb, .inr hl⟩
    · have hok := hc.1
      cases hr : (mutation.run store.db).result with
      | error error =>
        rw [hr] at hok
        cases hok
      | ok v => exact .inr ⟨v, hre.trans hr, rfl, hdb, hl⟩
  · obtain ⟨error, htx⟩ := transaction_of_not_commits hc
    rw [htx]
    exact .inl ⟨⟨error, rfl⟩, rfl, .inl rfl⟩

/-- A transaction is all or nothing exactly unless its new file was put in place, opening or
syncing the directory failed after that, and the file did not hold the same database before. -/
theorem transaction_atomic_iff (codec : SecretCodec) (store : SecretStore) (mutation : Mutation τ)
    (around : PersistSurroundings) : TransactionAtomic codec store mutation around ↔
      ¬ (Commits codec store mutation around ∧ DirectoryFails around ∧
        loadDb codec store.file ≠ .ok (mutation.run store.db).db) := by
  by_cases hc : Commits codec store mutation around
  · obtain ⟨hl, ⟨⟨error, he⟩, hd, hdb⟩ | ⟨hr, hd, hdb⟩⟩ :=
      transaction_of_commits hc
    · simp only [TransactionAtomic, he, hdb, hl, true_and, hc, hd]
      rw [not_not, eq_comm]
    · obtain ⟨v, hv⟩ : ∃ v, (mutation.run store.db).result = .ok v := by
        have hok := hc.1
        cases hr : (mutation.run store.db).result with
        | error error =>
          rw [hr] at hok
          cases hok
        | ok v => exact ⟨v, rfl⟩
      simp only [TransactionAtomic, hr, hv, hdb, hl, and_self, true_iff]
      rintro ⟨-, hf, -⟩
      exact hd hf
  · obtain ⟨error, ht⟩ := transaction_of_not_commits hc
    simp only [TransactionAtomic, ht, and_self, true_iff]
    rintro ⟨hc', -⟩
    exact hc hc'

/-! A store whose directory cannot be synced. -/

def note : NewItem :=
  { label := "note", attributes := ∅, secret := [], contentType := "text/plain",
    itemType := "org.freedesktop.Secret.Generic", replace := false }

def noteDb : SecretDb := (SecretDb.fresh.create note 100).1

/-- The JSON text of `noteDb`. -/
def noteJson : List UInt8 :=
  ("\x7b\"next_id\":2,\"items\":[\x7b\"id\":1,\"label\":\"note\",\"attributes\":\x7b\x7d," ++
    "\"secret\":\"\",\"content_type\":\"text/plain\"," ++
    "\"item_type\":\"org.freedesktop.Secret.Generic\",\"created\":100,\"modified\":100\x7d]\x7d").toList.map
    fun c => UInt8.ofNat c.toNat

def noteBytes : List UInt8 :=
  [123, 34, 110, 101, 120, 116, 95, 105, 100, 34, 58, 50, 44, 34, 105, 116, 101, 109, 115, 34,
    58, 91, 123, 34, 105, 100, 34, 58, 49, 44, 34, 108, 97, 98, 101, 108, 34, 58, 34, 110, 111,
    116, 101, 34, 44, 34, 97, 116, 116, 114, 105, 98, 117, 116, 101, 115, 34, 58, 123, 125, 44,
    34, 115, 101, 99, 114, 101, 116, 34, 58, 34, 34, 44, 34, 99, 111, 110, 116, 101, 110, 116, 95,
    116, 121, 112, 101, 34, 58, 34, 116, 101, 120, 116, 47, 112, 108, 97, 105, 110, 34, 44, 34,
    105, 116, 101, 109, 95, 116, 121, 112, 101, 34, 58, 34, 111, 114, 103, 46, 102, 114, 101, 101,
    100, 101, 115, 107, 116, 111, 112, 46, 83, 101, 99, 114, 101, 116, 46, 71, 101, 110, 101, 114,
    105, 99, 34, 44, 34, 99, 114, 101, 97, 116, 101, 100, 34, 58, 49, 48, 48, 44, 34, 109, 111,
    100, 105, 102, 105, 101, 100, 34, 58, 49, 48, 48, 125, 93, 125]

theorem noteJson_eq : noteJson = noteBytes := by
  refine (congrArg (List.map _) (String.toList_append.trans (congrArg₂ (· ++ ·)
    (String.toList_append.trans (congrArg₂ (· ++ ·) String.toList_ofList String.toList_ofList))
      String.toList_ofList))).trans ?_
  decide +kernel

/-- A serializer of `noteDb`, and a cipher that appends a tag only. -/
def noteCodec : SecretCodec where
  encrypt _ plain := plain ++ List.replicate 16 0
  decrypt _ cipher := some (cipher.take (cipher.length - 16))
  decrypt_encrypt nonce plain := by simp
  length_encrypt nonce plain := by simp
  serialize db := if db = noteDb then .ok noteJson else .error "not the note"
  deserialize plain := .ok noteDb
  deserialize_serialize db plain h := by
    split at h
    case isTrue heq => rw [heq]
    case isFalse => cases h

/-- The codec with the text that it writes at hand. -/
def noteCodecOf (json : List UInt8) : SecretCodec :=
  { noteCodec with
    serialize := fun db => if db = noteDb then .ok json else .error "not the note"
    deserialize_serialize := by
      intro db plain h
      split at h
      case isTrue heq => rw [heq]; rfl
      case isFalse => cases h }

theorem noteCodec_eq : noteCodec = noteCodecOf noteBytes := by
  rw [← noteJson_eq]
  rfl

def newStore : SecretStore := { db := SecretDb.fresh, file := none, limited := by decide }

def createNote : Mutation Unit := .create note 100 fun _ => .done (.ok ())

def syncFails : PersistSurroundings :=
  { hasParent := true, directoryExists := true, nonce := ⟨List.replicate 12 0, rfl⟩
    fails := fun step => if step = .syncDirectory then some "Input/output error (os error 5)" else none }

/-- The caller is told that the note was not stored, and the next `open` finds it. -/
theorem failed_sync_stores_note :
    (∃ error, (newStore.transaction noteCodec createNote syncFails).2 = .error error) ∧
      (newStore.transaction noteCodec createNote syncFails).1.db = SecretDb.fresh ∧
      loadDb noteCodec newStore.file = .ok SecretDb.fresh ∧
      loadDb noteCodec (newStore.transaction noteCodec createNote syncFails).1.file = .ok noteDb ∧
      noteDb ≠ SecretDb.fresh := by
  have hc : Commits noteCodec newStore createNote syncFails := by
    have hr : (createNote.run newStore.db).db = noteDb := rfl
    have hs : noteCodec.serialize noteDb = .ok noteJson := by simp [noteCodec]
    rw [Commits, hr]
    refine ⟨rfl, ⟨noteJson, hs, by rw [noteJson_eq]; decide +kernel⟩, by decide, ?_⟩
    rintro - ⟨⟩
  obtain ⟨hl, ⟨he, -, hdb⟩ | ⟨-, hsy, -⟩⟩ := transaction_of_commits hc
  · refine ⟨he, hdb, rfl, hl, ?_⟩
    intro heq
    have hn : noteDb.nextId = SecretDb.fresh.nextId := congrArg SecretDb.nextId heq
    exact absurd hn (by decide)
  · exact absurd ⟨rfl, .inr (by decide)⟩ hsy

end FocalDesk
