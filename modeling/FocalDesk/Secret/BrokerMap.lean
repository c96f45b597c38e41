import FocalDesk.Secret.Confinement
import FocalDesk.Secret.Vault

/-! The native broker as a map: runs of requests against what was set and deleted. -/
namespace FocalDesk
open Library List SecretDb

variable {codec : SecretCodec} {base64 : Base64} {acl : AclConfig} {db : SecretDb}
  {key identity : String} {item other : SecretItem} {store : SecretStore}
  {around : PersistSurroundings} {now n : ℕ} {sess : Except SsError Unit}
  {request : BrokerRequest} {daemon daemon' first : SecretDaemon} {event : DaemonEvent}
  {evs : List DaemonEvent} {e : ListEntry}

/-- What an answered request makes of the map. -/
def NativeRecord.applyTo (base64 : Base64) (vault : String → Option SecretValue)
    (record : NativeRecord) : String → Option SecretValue :=
  match record.request, record.response with
  | .set key valueB64 _ _ contentType, .ok .. =>
    Function.update vault key
      ((base64.decode valueB64).toOption.map fun secret => (secret, contentType.getD "text/plain"))
  | .delete key, .ok .. => Function.update vault key none
  | _, _ => vault

/-! One request. -/

/-- Each key has one item, in memory and in the file. -/
structure SecretStore.Keyed (codec : SecretCodec) (store : SecretStore) : Prop where
  memory : store.db.OnePerKey
  disk : ∃ db, loadDb codec store.file = .ok db ∧ db.OnePerKey

/-- What a request does: nothing if it is answered with an error, else what its record says. -/
structure Answers (codec : SecretCodec) (base64 : Base64) (store : SecretStore) (identity : String)
    (request : BrokerRequest) (served : SecretStore × BrokerResponse) :
    Prop where
  keyed : served.1.Keyed codec
  vault : served.1.db.vault =
    ({ identity, request, response := served.2 } : NativeRecord).applyTo base64 store.db.vault
  error : ∀ error, served.2 = .error error → served.1.db = store.db

theorem SecretStore.Keyed.transaction {τ : Type} (h : store.Keyed codec) (mutation : Mutation τ)
    (hm : (mutation.run store.db).db.OnePerKey) (around : PersistSurroundings) :
    (store.transaction codec mutation around).1.Keyed codec := by
  rcases transaction_cases codec store mutation around with
    ⟨-, hdb, hf | hl⟩ | ⟨v, -, -, hdb, hl⟩
  · exact ⟨by rw [hdb]; exact h.memory, by rw [hf]; exact h.disk⟩
  · exact ⟨by rw [hdb]; exact h.memory, _, hl, hm⟩
  · exact ⟨by rw [hdb]; exact hm, _, hl, hm⟩

theorem answers_error (h : store.Keyed codec) (err : String) :
    Answers codec base64 store identity request (store, .error err) := by
  refine ⟨h, ?_, fun _ _ => rfl⟩
  cases request <;> rfl

theorem answers_commitSet (h : store.Keyed codec) (hg : store.db.Good) {valueB64 : String}
    {sec : List UInt8} (hd : base64.decode valueB64 = .ok sec)
    (l ctype : Option String) (attrs : BTreeMap String String) :
    Answers codec base64 store identity (.set key valueB64 l attrs ctype)
      (commitSet codec store key sec l ctype attrs now around) := by
  have hk := h.transaction _ (onePerKey_setMutation hg h.memory key sec l ctype attrs now) around
  unfold commitSet
  rcases transaction_cases codec store
      (setMutation key (brokerItem key sec l ctype attrs) now) around with
    ⟨⟨err, he⟩, hdb, -⟩ | ⟨⟨⟩, hv, hr, hdb, -⟩
  · generalize store.transaction codec _ around = after at hk he hdb ⊢
    obtain ⟨after, res⟩ := after
    obtain rfl := he
    exact ⟨hk, congrArg vault hdb, fun _ _ => hdb⟩
  · have hva := vault_setMutation hg key sec l ctype attrs now hr
    generalize store.transaction codec _ around = after at hk hv hdb ⊢
    obtain ⟨after, res⟩ := after
    obtain rfl := hv
    refine ⟨hk, ?_, ?_⟩
    · rw [show after.db = _ from hdb, hva]
      simp [NativeRecord.applyTo, BrokerResponse.done, hd, Except.toOption]
    · intro err he
      cases he

theorem answers_commitDelete (h : store.Keyed codec) (hg : store.db.Good) (key : String) :
    Answers codec base64 store identity (.delete key) (commitDelete codec store key around) := by
  have hr := run_deleteMutation hg key
  have hk := h.transaction (deleteMutation (store.db.search (keyOnly key)))
    (by rw [hr]; exact onePerKey_without h.memory key) around
  unfold commitDelete
  dsimp only
  split
  · exact answers_error h _
  · rcases transaction_cases codec store (deleteMutation (store.db.search (keyOnly key))) around with
      ⟨⟨err, he⟩, hdb, -⟩ | ⟨⟨⟩, hv, hre, hdb, -⟩
    · generalize store.transaction codec _ around = after at hk he hdb ⊢
      obtain ⟨after, res⟩ := after
      obtain rfl := he
      exact ⟨hk, congrArg vault hdb, fun _ _ => hdb⟩
    · generalize store.transaction codec _ around = after at hk hv hdb ⊢
      obtain ⟨after, res⟩ := after
      obtain rfl := hv
      refine ⟨hk, ?_, ?_⟩
      · rw [show after.db = _ from hdb, hr, vault_without]
        rfl
      · intro err he
        cases he

theorem answers_dispatch (h : store.Keyed codec) (hg : store.db.Good) (base64 : Base64)
    (acl : AclConfig) (identity : String) (request : BrokerRequest) (now : ℕ)
    (around : PersistSurroundings) :
    Answers codec base64 store identity request
      (dispatch codec base64 acl store identity request now around) := by
  cases request with
  | ping => exact ⟨h, rfl, fun _ _ => rfl⟩
  | get key =>
    simp only [dispatch]
    split
    · exact answers_error h _
    · split
      · exact answers_error h _
      · split
        · exact ⟨h, rfl, fun _ _ => rfl⟩
        · exact answers_error h _
  | set key valueB64 l attrs ctype =>
    simp only [dispatch]
    split
    · exact answers_error h _
    · split
      · exact answers_error h _
      · split
        · exact answers_error h _
        · rename_i secret hd
          split
          · exact answers_error h _
          · exact answers_commitSet h hg hd l ctype attrs
  | delete key =>
    simp only [dispatch]
    split
    · exact answers_error h _
    · split
      · exact answers_error h _
      · exact answers_commitDelete h hg key
  | list keyPrefix =>
    simp only [dispatch]
    split
    · exact answers_error h _
    · exact ⟨h, rfl, fun _ _ => rfl⟩

/-! What is read. -/

theorem dispatch_get (hg : store.db.Good) (codec : SecretCodec) (base64 : Base64) (now : ℕ)
    (around : PersistSurroundings) (hv : validKey key) (ha : acl.check identity key false) :
    (dispatch codec base64 acl store identity (.get key) now around).2 =
      (store.db.vault key).elim (.error "not found") fun v =>
        .ok (some (base64.encode v.1)) (some v.2) none := by
  simp only [dispatch, hv, ha, Bool.true_eq_false, if_false, hg.lookup]
  unfold vault
  cases store.db.items.find? (SecretItem.hasKey key) <;> rfl

theorem listEntry_eq_some {keyPrefix : Option String}
    (h : listEntry acl identity keyPrefix item = some e) :
    item.hasKey e.key ∧
      (∀ required, keyPrefix = some required → startsWith e.key required) ∧
      acl.check identity e.key false := by
  unfold listEntry at h
  split at h
  · cases h
  · rename_i found hk
    split at h
    · cases h
    · rename_i hs
      split at h
      · cases h
      · rename_i ha
        cases h
        refine ⟨by simp [SecretItem.hasKey, hk], ?_, by simpa using ha⟩
        rintro required rfl
        simpa using hs

theorem exists_listEntry {keyPrefix : Option String} (hk : item.hasKey key)
    (hs : ∀ required, keyPrefix = some required → startsWith key required)
    (ha : acl.check identity key false) :
    ∃ e, listEntry acl identity keyPrefix item = some e ∧ e.key = key := by
  have hk : item.attributes[keyAttr]? = some key := eq_of_beq hk
  have hp : (keyPrefix.any fun required => !startsWith key required) = false := by
    cases keyPrefix with
    | none => rfl
    | some required => simp [hs required rfl]
  unfold listEntry
  simp [hk, hp, ha]

theorem isSome_vault : (db.vault key).isSome ↔ ∃ item ∈ db.items, item.hasKey key := by
  simp [vault]

/-- The keys that `List` answers with: each once, those that are stored, readable and start so. -/
theorem keys_listed (hg : db.Good) (hon : db.OnePerKey) (acl : AclConfig) (identity : String)
    (keyPrefix : Option String) :
    ((db.items.filterMap (listEntry acl identity keyPrefix)).map ListEntry.key).Nodup ∧
      ∀ key, key ∈ (db.items.filterMap (listEntry acl identity keyPrefix)).map ListEntry.key ↔
        (db.vault key).isSome ∧
          (∀ required, keyPrefix = some required → startsWith key required) ∧
          acl.check identity key false := by
  constructor
  · rw [List.Nodup, pairwise_map, pairwise_filterMap]
    have hn : db.items.Nodup := hg.distinct.of_map _
    refine hn.imp_of_mem ?_
    intro item other hi ho hne e he e' he' hsa
    have hk := (listEntry_eq_some he).1
    rw [hsa] at hk
    exact hne (hon item hi other ho _ hk (listEntry_eq_some he').1)
  · intro key
    rw [isSome_vault]
    constructor
    · intro hm
      obtain ⟨e, he, rfl⟩ := mem_map.mp hm
      obtain ⟨item, hi, he⟩ := mem_filterMap.mp he
      obtain ⟨hk, hr⟩ := listEntry_eq_some he
      exact ⟨⟨item, hi, hk⟩, hr⟩
    · rintro ⟨⟨item, hi, hk⟩, hs, ha⟩
      obtain ⟨e, he, rfl⟩ := exists_listEntry hk hs ha
      exact mem_map_of_mem (mem_filterMap.mpr ⟨item, hi, he⟩)

/-! Runs. -/

theorem nativeItems_importMutation (hg : db.Good) (now : ℕ) (imported : List ImportedItem) :
    ((importMutation now imported).run db).db.nativeItems = db.nativeItems := by
  induction imported generalizing db with
  | nil => rfl
  | cons item rest ih =>
    simp only [importMutation, Mutation.run]
    split
    · exact ih hg
    · have hc : (db.create item.newItem now).1.nativeItems = db.nativeItems :=
        nativeItems_create hg (contains_keyAttr_newItem item)
      simp only [Mutation.run]
      have hg' := hg.create item.newItem now
      generalize db.create item.newItem now = created at hc hg' ⊢
      obtain ⟨created, err | v⟩ := created
      · exact hc
      · exact (ih hg').trans hc

namespace SecretStore.Keyed

theorem served (h : store.Keyed codec) {served : Served}
    (hs : ServesPublic codec store around served) : served.1.Keyed codec := by
  obtain ⟨hn, hf⟩ := nativeItems_of_servesPublic hs
  refine ⟨onePerKey_of_nativeItems hn h.memory, ?_⟩
  rcases hf with hf | ⟨db, hl, hdb⟩
  · rw [hf]
    exact h.disk
  · exact ⟨db, hl, onePerKey_of_nativeItems hdb h.memory⟩

theorem importInto (h : store.Keyed codec) (hg : store.db.Good) (imported : List ImportedItem)
    (now : ℕ) (around : PersistSurroundings) :
    (importInto codec store imported now around).1.Keyed codec := by
  have hk := h.transaction (importMutation now imported)
    (onePerKey_of_nativeItems (nativeItems_importMutation hg now imported) h.memory)
    around
  unfold FocalDesk.importInto
  generalize store.transaction codec _ around = after at hk ⊢
  obtain ⟨after, err | v⟩ := after
  · exact hk
  · exact hk

theorem openStore {opn : SecretStore} (h : store.Keyed codec)
    (ho : SecretStore.openStore codec store.file = .ok opn) : opn.Keyed codec := by
  obtain ⟨db, hl, hon⟩ := h.disk
  obtain ⟨opened', ho', hdb, hf⟩ := openStore_of_loadDb hl
  obtain rfl := Except.ok.inj (ho.symm.trans ho')
  exact ⟨hdb ▸ hon, db, hf ▸ hl, hon⟩

end SecretStore.Keyed

/-- The events of one process under one access control. -/
def DaemonEvent.continues : DaemonEvent → Bool
  | .reloadAcl _ => false
  | .restart .. => false
  | _ => true

namespace SecretDaemon

/-- From one state to another the map went as the records in between say. -/
structure Follows (base64 : Base64) (first daemon : SecretDaemon) : Prop where
  acl : daemon.acl = first.acl
  records : ∃ answered, daemon.records = first.records ++ answered ∧
    daemon.store.db.vault = answered.foldl (NativeRecord.applyTo base64) first.store.db.vault

theorem Follows.refl (first : SecretDaemon) : Follows base64 first first :=
  ⟨rfl, [], by simp, rfl⟩

theorem Follows.same (h : Follows base64 first daemon) (ha : daemon'.acl = daemon.acl)
    (hr : daemon'.records = daemon.records) (hv : daemon'.store.db.vault = daemon.store.db.vault)
    : Follows base64 first daemon' := by
  obtain ⟨answered, han, hs⟩ := h.records
  exact ⟨ha.trans h.acl, answered, hr.trans han, hv.trans hs⟩

/-- Both invariants of the daemon and its store. -/
def KeptSound (codec : SecretCodec) (daemon : SecretDaemon) : Prop :=
  daemon.Sound codec ∧ daemon.store.Keyed codec

/-- What serving a call does to the map: nothing, or what one new record says. -/
theorem serveCall_cases (hso : daemon.Sound codec) (hk : daemon.store.Keyed codec)
    {call : DaemonCall} (hc : daemon.calls[n]? = some call)
    (hs : daemon.serveCall codec base64 n sess now around call = some daemon') :
    daemon'.store.Keyed codec ∧ daemon'.acl = daemon.acl ∧
      (daemon'.records = daemon.records ∧ daemon'.store.db.vault = daemon.store.db.vault ∨
        ∃ r : NativeRecord, daemon'.records = daemon.records ++ [r] ∧
          daemon'.store.db.vault = r.applyTo base64 daemon.store.db.vault) := by
  cases call with
  | bus call =>
    cases hs
    have hse := serve_public codec sess now around hso.store.memory (hso.calls n _ hc)
    exact ⟨hk.served hse, rfl, .inl ⟨rfl,
      vault_of_nativeItems (nativeItems_of_servesPublic hse).1⟩⟩
  | collecting ps found =>
    cases ps with
    | nil =>
      cases hs
      exact ⟨hk, rfl, .inl ⟨rfl, rfl⟩⟩
    | cons path ps =>
      simp only [serveCall] at hs
      split at hs
      · cases hs
        exact ⟨hk, rfl, .inl ⟨rfl, rfl⟩⟩
      · split at hs
        · cases hs
          exact ⟨hk, rfl, .inl ⟨rfl, rfl⟩⟩
        · cases hs
          exact ⟨hk, rfl, .inl ⟨rfl, rfl⟩⟩
  | native identity request =>
    cases hs
    have ha := answers_dispatch hk hso.store.memory base64 daemon.acl identity request now around
    exact ⟨ha.keyed, rfl, .inr ⟨_, rfl, ha.vault⟩⟩
  | syncing => cases hs
  | applying tk ids => cases hs

theorem begin_eq_some {call : DaemonCall} (h : daemon.begin n call = some daemon') :
    daemon'.store = daemon.store ∧ daemon'.acl = daemon.acl ∧ daemon'.records = daemon.records := by
  unfold begin at h
  split at h
  · cases h
  · cases h
    exact ⟨rfl, rfl, rfl⟩

theorem restart_keyed (hso : daemon.Sound codec) (hk : daemon.store.Keyed codec)
    {imported : Option (List ImportedItem)}
    (hs : daemon.restart codec imported now around = some daemon') :
    daemon'.store.Keyed codec := by
  unfold restart at hs
  cases ho : SecretStore.openStore codec daemon.store.file with
  | error error =>
    rw [ho] at hs
    cases hs
  | ok store =>
    have hst := hk.openStore ho
    have hg := (hso.store.openStore ho).memory
    rw [ho] at hs
    cases imported with
    | none =>
      cases hs
      exact hst
    | some its =>
      have ha := hst.importInto hg its now around
      dsimp only at hs
      cases hr : SecretStore.openStore codec (importInto codec store its now around).1.file with
      | error error =>
        rw [hr] at hs
        cases hs
      | ok reopened =>
        rw [hr] at hs
        cases hs
        exact ha.openStore hr

/-- What a step does to the map. -/
theorem step_keyed (hs : daemon.step codec base64 event = some daemon') (hso : daemon.Sound codec)
    (hk : daemon.store.Keyed codec) :
    daemon'.store.Keyed codec ∧ (event.continues → daemon'.acl = daemon.acl ∧
      (daemon'.records = daemon.records ∧ daemon'.store.db.vault = daemon.store.db.vault ∨
        ∃ r : NativeRecord, daemon'.records = daemon.records ++ [r] ∧
          daemon'.store.db.vault = r.applyTo base64 daemon.store.db.vault)) := by
  have hb : ∀ {n call}, daemon.begin n call = some daemon' → daemon'.store.Keyed codec ∧
      (event.continues → daemon'.acl = daemon.acl ∧
        (daemon'.records = daemon.records ∧ daemon'.store.db.vault = daemon.store.db.vault ∨
          ∃ r : NativeRecord, daemon'.records = daemon.records ++ [r] ∧
            daemon'.store.db.vault = r.applyTo base64 daemon.store.db.vault)) := by
    intro n call hb
    obtain ⟨hst, ha, hr⟩ := begin_eq_some hb
    rw [hst]
    exact ⟨hk, fun _ => ⟨ha, .inl ⟨hr, rfl⟩⟩⟩
  cases event with
  | reloadAcl acl =>
    cases hs
    refine ⟨hk, ?_⟩
    rintro ⟨⟩
  | busCall n call =>
    simp only [step] at hs
    split at hs
    · exact hb hs
    · cases hs
  | getSecrets n ps => exact hb hs
  | request n identity request => exact hb hs
  | serve n sess now around =>
    obtain ⟨call, hc, hse⟩ := Option.bind_eq_some_iff.mp hs
    obtain ⟨hk', ha, hr⟩ := serveCall_cases hso hk hc hse
    exact ⟨hk', fun _ => ⟨ha, hr⟩⟩
  | snapshot n =>
    simp only [step] at hs
    split at hs
    · cases hs
      exact ⟨hk, fun _ => ⟨rfl, .inl ⟨rfl, rfl⟩⟩⟩
    · cases hs
  | apply n failed =>
    simp only [step] at hs
    split at hs
    · cases hs
      cases failed <;> exact ⟨hk, fun _ => ⟨rfl, .inl ⟨rfl, rfl⟩⟩⟩
    · cases hs
  | restart imported now around =>
    refine ⟨restart_keyed hso hk hs, ?_⟩
    rintro ⟨⟩

theorem step_sound_keyed (hs : daemon.step codec base64 event = some daemon')
    (h : daemon.KeptSound codec) : daemon'.KeptSound codec :=
  ⟨step_sound hs h.1, (step_keyed hs h.1 h.2).1⟩

theorem step_follows (hst : daemon.step codec base64 event = some daemon') (hc : event.continues)
    (h : daemon.KeptSound codec ∧ Follows base64 first daemon) :
    daemon'.KeptSound codec ∧ Follows base64 first daemon' := by
  obtain ⟨⟨hs, hk⟩, hf⟩ := h
  obtain ⟨hk', hm⟩ := step_keyed hst hs hk
  refine ⟨⟨step_sound hst hs, hk'⟩, ?_⟩
  obtain ⟨ha, ⟨hr, hv⟩ | ⟨r, hr, hv⟩⟩ := hm hc
  · exact hf.same ha hr hv
  · obtain ⟨answered, han, hsa⟩ := hf.records
    refine ⟨ha.trans hf.acl, answered ++ [r], ?_, ?_⟩
    · rw [hr, han, append_assoc]
    · rw [hv, hsa, foldl_append]
      rfl

end SecretDaemon

theorem keyed_newStore : newStore.Keyed codec := by
  have hf : fresh.OnePerKey := by
    intro item hi
    cases hi
  exact ⟨hf, fresh, rfl, hf⟩

/-- After any run, as long as the process and its access control stay, each key has at most one
item and the map is what the requests answered since then made of it; `Get` of a valid key answers
from the map, `List` with the readable keys that start as asked for, each once, and a request that
is answered with an error leaves the database as it was. -/
theorem broker_map (codec : SecretCodec) (base64 : Base64) (acl : AclConfig)
    {before after : List DaemonEvent}
    (hbefore : run (SecretDaemon.step codec base64) (SecretDaemon.started acl) before = some first)
    (hafter : run (SecretDaemon.step codec base64) first after = some daemon)
    (hcontinues : ∀ event ∈ after, event.continues = true) :
    daemon.store.db.OnePerKey ∧
      daemon.store.db.vault =
        (daemon.records.drop first.records.length).foldl (NativeRecord.applyTo base64)
          first.store.db.vault ∧
      ∀ identity now around,
        (∀ key, validKey key = true → first.acl.check identity key false = true →
          (dispatch codec base64 daemon.acl daemon.store identity (.get key) now around).2 =
            (daemon.store.db.vault key).elim (.error "not found") fun value =>
              .ok (some (base64.encode value.1)) (some value.2) none) ∧
        (∀ keyPrefix, overLimit nativeLimits.keyBytes keyPrefix = false → ∃ entries,
          (dispatch codec base64 daemon.acl daemon.store identity (.list keyPrefix) now around).2 =
              .ok none none (some entries) ∧
            (entries.map ListEntry.key).Nodup ∧
            ∀ key, key ∈ entries.map ListEntry.key ↔ (daemon.store.db.vault key).isSome = true ∧
              (∀ required, keyPrefix = some required → startsWith key required = true) ∧
              first.acl.check identity key false = true) ∧
        ∀ request error,
          (dispatch codec base64 daemon.acl daemon.store identity request now around).2 =
              .error error →
            (dispatch codec base64 daemon.acl daemon.store identity request now around).1.db =
              daemon.store.db := by
  have hfi : first.KeptSound codec := run_invariant SecretDaemon.step_sound_keyed hbefore
    ⟨SecretDaemon.sound_opened sound_newStore acl [], keyed_newStore⟩
  have hm : Meets (SecretDaemon.step codec base64) (fun _ event => event.continues = true)
      first after := meets_of_forall fun event he _ => hcontinues event he
  obtain ⟨⟨hs, hk⟩, hf⟩ := run_invariant_of_meets SecretDaemon.step_follows hm
    hafter ⟨hfi, SecretDaemon.Follows.refl first⟩
  have hg := hs.store.memory
  obtain ⟨answered, hr, hv⟩ := hf.records
  refine ⟨hk.memory, ?_, ?_⟩
  · rw [hr, drop_left]
    exact hv
  · intro identity now around
    rw [hf.acl]
    refine ⟨fun key hva ha => dispatch_get hg codec base64 now around hva ha,
      ?_, fun request error => (answers_dispatch hk hg base64 first.acl identity request now
        around).error error⟩
    intro keyPrefix hl
    exact ⟨_, by simp [dispatch, hl], keys_listed hg hk.memory first.acl identity keyPrefix⟩

/-! A token that is set, and the empty key. -/

/-- A peer that may read and write every key. -/
def grantsAll : AclConfig :=
  { grants := (∅ : BTreeMap String Grant).insert "unit:app" { allow := ["*"], allowWrite := none } }

theorem globMatch_star (text : String) : globMatch "*" text :=
  (globMatch_iff "*" text).2
    (expands_star.mpr ⟨text.toUTF8.data.toList.length, expands_nil.mpr drop_length⟩)

theorem check_grantsAll (key : String) (write : Bool) :
    grantsAll.check "unit:app" key write := by
  simp [AclConfig.check, grantsAll, globMatch_star]

def tokenDb : SecretDb :=
  ((setMutation "token" (brokerItem "token" [104, 105] none none ∅) 100).run SecretDb.fresh).db

/-- The JSON text of `tokenDb`. -/
def tokenJson : List UInt8 :=
  utf8 "\x7b\"next_id\":2,\"items\":[\x7b\"id\":1,\"label\":\"token\"," ++
    utf8 "\"attributes\":\x7b\"focald:key\":\"token\"\x7d,\"secret\":\"aGk=\"," ++
    utf8 "\"content_type\":\"text/plain\",\"item_type\":\"org.freedesktop.Secret.Generic\"," ++
    utf8 "\"created\":100,\"modified\":100\x7d]\x7d"

/-- A serializer of `tokenDb`, with the cipher of `noteCodec`. -/
def tokenCodec : SecretCodec where
  encrypt := noteCodec.encrypt
  decrypt := noteCodec.decrypt
  decrypt_encrypt := noteCodec.decrypt_encrypt
  length_encrypt := noteCodec.length_encrypt
  serialize db := if db = tokenDb then .ok tokenJson else .error "not the token"
  deserialize plain := .ok tokenDb
  deserialize_serialize db plain h := by
    split at h
    case isTrue heq => rw [heq]
    case isFalse => cases h

def setToken : BrokerRequest := .set "token" "aGk=" none ∅ none

theorem dispatch_setToken :
    (dispatch tokenCodec sampleBase64 grantsAll newStore "unit:app" setToken 100 nothingFails).2 =
      .done := by
  simp only [dispatch, setToken, check_grantsAll]
  decide +kernel

def tokenEvents : List DaemonEvent :=
  [.request 1 "unit:app" setToken, .serve 1 (.ok ()) 100 nothingFails]

theorem broker_map_sample : ∃ daemon,
    run (SecretDaemon.step tokenCodec sampleBase64) (SecretDaemon.started grantsAll) tokenEvents =
        some daemon ∧ daemon.store.db.OnePerKey ∧
      daemon.store.db.vault "token" = some ([104, 105], "text/plain") := by
  have hb : run (SecretDaemon.step tokenCodec sampleBase64) (SecretDaemon.started grantsAll) [] =
      some (SecretDaemon.started grantsAll) := rfl
  obtain ⟨daemon, hru, hr⟩ : ∃ daemon,
      run (SecretDaemon.step tokenCodec sampleBase64) (SecretDaemon.started grantsAll) tokenEvents =
          some daemon ∧
        daemon.records = [{ identity := "unit:app", request := setToken, response :=
          (dispatch tokenCodec sampleBase64 grantsAll newStore "unit:app" setToken 100
            nothingFails).2 }] := ⟨_, rfl, rfl⟩
  obtain ⟨ho, hv, -⟩ := broker_map tokenCodec sampleBase64 grantsAll hb hru
    (by simp [tokenEvents, DaemonEvent.continues])
  refine ⟨daemon, hru, ho, ?_⟩
  rw [hv, hr, dispatch_setToken]
  rfl

/-- `Get` of the empty key by a peer that may read every key is refused as an invalid key. -/
theorem empty_key_refused :
    ¬ ∀ (codec : SecretCodec) (base64 : Base64) (acl : AclConfig) (identity key : String) (now : ℕ)
      (around : PersistSurroundings), acl.check identity key false = true →
        (dispatch codec base64 acl newStore identity (.get key) now around).2 =
          (newStore.db.vault key).elim (.error "not found") fun value =>
            .ok (some (base64.encode value.1)) (some value.2) none := by
  intro h
  have hg := h tokenCodec sampleBase64 grantsAll "unit:app" "" 100 nothingFails
    (check_grantsAll "" false)
  have hi : validKey "" = false := by decide
  have hv : newStore.db.vault "" = none := rfl
  simp only [dispatch, hi, if_true, hv, Option.elim_none] at hg
  injection hg with ht
  exact absurd ht (by decide)

end FocalDesk
