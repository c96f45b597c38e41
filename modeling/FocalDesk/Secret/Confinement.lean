import FocalDesk.Secret.Surface

/-! Runs of the daemon: only public ids are on the bus, and native items stay confined. -/
namespace FocalDesk
open Library List Except SecretDb

variable {τ : Type} {codec : SecretCodec} {base64 : Base64} {acl : AclConfig} {db : SecretDb}
  {id n now : ℕ} {mutation : Mutation τ} {store : SecretStore} {session : Except SsError Unit}
  {around : PersistSurroundings} {call : BusCall} {daemon daemon' : SecretDaemon}
  {ev : DaemonEvent} {events : List DaemonEvent} {created : List ℕ}

/-- Good databases in memory and in the file, where the created ids are public. -/
structure SecretStore.Sound (codec : SecretCodec) (store : SecretStore) (created : List ℕ) :
    Prop where
  memory : store.db.Good
  disk : ∃ db, loadDb codec store.file = .ok db ∧ db.Good ∧ ∀ id ∈ created, db.PublicId id
  created : ∀ id ∈ created, store.db.PublicId id

namespace SecretStore.Sound

/-- A transaction that succeeds may add the public ids that it was handed out. -/
theorem transaction (h : store.Sound codec created) (hk : mutation.KeepsPublic)
    (around : PersistSurroundings) (ids : List ℕ)
    (hi : ∀ id ∈ ids, (store.transaction codec mutation around).2.isOk ∧
      (mutation.run store.db).db.PublicId id) :
    (store.transaction codec mutation around).1.Sound codec (created ++ ids) ∧
      store.db.Evolves (store.transaction codec mutation around).1.db := by
  have he := hk.evolves store.db
  have hg := mutation.run_good h.memory
  rcases transaction_cases codec store mutation around with
    ⟨⟨err, her⟩, hdb, hf⟩ | ⟨v, hv, -, hdb, hl⟩
  · obtain rfl : ids = [] := by
      refine eq_nil_iff_forall_not_mem.mpr ?_
      intro id hid
      have hok := (hi id hid).1
      rw [her] at hok
      cases hok
    rw [append_nil, hdb]
    refine ⟨⟨hdb ▸ h.memory, ?_, hdb ▸ h.created⟩, Evolves.refl _⟩
    rcases hf with hf | hl
    · exact hf ▸ h.disk
    · exact ⟨_, hl, hg, fun id hid => (h.created id hid).evolves he⟩
  · have hp : ∀ id ∈ created ++ ids, (mutation.run store.db).db.PublicId id := by
      intro id hid
      rcases mem_append.mp hid with hid | hid
      · exact (h.created id hid).evolves he
      · exact (hi id hid).2
    rw [hdb]
    exact ⟨⟨hdb ▸ hg, ⟨_, hl, hg, hp⟩, hdb ▸ hp⟩, he⟩

theorem transaction_nil (h : store.Sound codec created) (hk : mutation.KeepsPublic)
    (around : PersistSurroundings) :
    (store.transaction codec mutation around).1.Sound codec created ∧
      store.db.Evolves (store.transaction codec mutation around).1.db := by
  have hs := h.transaction hk around [] fun id hid => absurd hid not_mem_nil
  rwa [append_nil] at hs

/-- What one section of a call keeps. -/
theorem served (h : store.Sound codec created) {served : Served}
    (hse : ServesPublic codec store around served) :
    served.1.Sound codec (created ++ createdIds served.2) ∧ store.db.Evolves served.1.db := by
  rcases hse with ⟨hs, hi⟩ | ⟨τ, mutation, hm, hs, hi⟩
  · rw [hs, hi, append_nil]
    exact ⟨h, Evolves.refl _⟩
  · rw [hs]
    apply h.transaction hm.onlyPublic.keepsPublic around
    intro id hid
    obtain ⟨hok, hid⟩ := hi id hid
    exact ⟨hok, hm.onlyPublic.publicId h.memory id hid⟩

theorem commitSet (h : store.Sound codec created) (key : String) (sec : List UInt8)
    (l ctype : Option String) (attrs : BTreeMap String String) :
    (commitSet codec store key sec l ctype attrs now around).1.Sound codec
        created ∧
      store.db.Evolves
        (FocalDesk.commitSet codec store key sec l ctype attrs now
          around).1.db := by
  have hs := h.transaction_nil (keepsPublic_setMutation key
    (brokerItem key sec l ctype attrs) now) around
  unfold FocalDesk.commitSet
  generalize store.transaction codec _ around = after at hs ⊢
  obtain ⟨after, _ | _⟩ := after <;> exact hs

theorem commitDelete (h : store.Sound codec created) (key : String) :
    (commitDelete codec store key around).1.Sound codec created ∧
      store.db.Evolves (FocalDesk.commitDelete codec store key around).1.db := by
  have hs := h.transaction_nil
    (keepsPublic_deleteMutation (store.db.search (keyOnly key))) around
  unfold FocalDesk.commitDelete
  dsimp only
  split
  · exact ⟨h, Evolves.refl _⟩
  · generalize store.transaction codec _ around = after at hs ⊢
    obtain ⟨after, _ | _⟩ := after <;> exact hs

theorem dispatch (h : store.Sound codec created) (base64 : Base64) (acl : AclConfig)
    (ident : String) (req : BrokerRequest) (now : ℕ) (around : PersistSurroundings) :
    (dispatch codec base64 acl store ident req now around).1.Sound codec created ∧
      store.db.Evolves
        (FocalDesk.dispatch codec base64 acl store ident req now around).1.db := by
  have hs := And.intro h (Evolves.refl store.db)
  cases req with
  | ping => exact hs
  | get key =>
    simp only [FocalDesk.dispatch]
    repeat' split
    all_goals exact hs
  | set key valueB64 l attrs ctype =>
    simp only [FocalDesk.dispatch]
    split
    · exact hs
    · split
      · exact hs
      · split
        · exact hs
        · split
          · exact hs
          · exact h.commitSet key _ l ctype attrs
  | delete key =>
    simp only [FocalDesk.dispatch]
    split
    · exact hs
    · split
      · exact hs
      · exact h.commitDelete key
  | list keyPrefix =>
    simp only [FocalDesk.dispatch]
    split <;> exact hs

theorem importInto (h : store.Sound codec created) (imported : List ImportedItem) (now : ℕ)
    (around : PersistSurroundings) :
    (importInto codec store imported now around).1.Sound codec
      (created ++ (FocalDesk.importInto codec store imported now around).2) := by
  have hp := onlyPublic_importMutation now imported
  rcases transaction_cases codec store (importMutation now imported) around with
    ⟨⟨err, he⟩, -, -⟩ | ⟨⟨⟩, hv, -, -, -⟩
  · have hs := (h.transaction_nil hp.keepsPublic around).1
    unfold FocalDesk.importInto
    generalize store.transaction codec _ around = after at hs he ⊢
    obtain ⟨after, res⟩ := after
    obtain rfl := he
    rw [append_nil]
    exact hs
  · have hs := (h.transaction hp.keepsPublic around
      ((importMutation now imported).run store.db).handedOut fun id hid =>
        ⟨by rw [hv]; rfl, hp.publicId h.memory id hid⟩).1
    unfold FocalDesk.importInto
    generalize store.transaction codec _ around = after at hs hv ⊢
    obtain ⟨after, res⟩ := after
    obtain rfl := hv
    exact hs

theorem openStore {opened : SecretStore} (h : store.Sound codec created)
    (ho : SecretStore.openStore codec store.file = .ok opened) : opened.Sound codec created := by
  obtain ⟨db, hl, hg, hp⟩ := h.disk
  obtain ⟨opened', ho', hdb, hf⟩ := openStore_of_loadDb hl
  obtain rfl := ok.inj (ho.symm.trans ho')
  exact ⟨hdb ▸ hg, ⟨db, hf ▸ hl, hg, hp⟩, hdb ▸ hp⟩

end SecretStore.Sound

theorem sound_newStore : newStore.Sound codec [] :=
  ⟨good_fresh, ⟨fresh, rfl, good_fresh, fun _ hid => absurd hid not_mem_nil⟩,
    fun _ hid => absurd hid not_mem_nil⟩

/-! The daemon. -/

/-- The ids of items that a call in flight holds on to. -/
def DaemonCall.ids : DaemonCall → Finset ℕ
  | .bus call => call.ids
  | .applying _ ids => ids
  | _ => ∅

/-- Every id on the bus, or on its way there, is public. -/
structure SecretDaemon.Sound (codec : SecretCodec) (daemon : SecretDaemon) : Prop where
  store : daemon.store.Sound codec daemon.created
  objects : ∀ id ∈ daemon.objects, daemon.store.db.PublicId id
  registered : ∀ id ∈ daemon.registered, daemon.store.db.PublicId id
  calls : ∀ (n : ℕ) (call : DaemonCall), daemon.calls[n]? = some call →
    ∀ id ∈ call.ids, daemon.store.db.PublicId id

namespace SecretDaemon

theorem sound_opened (h : store.Sound codec created) (acl : AclConfig)
    (records : List NativeRecord) : (opened acl store created records).Sound codec := by
  refine ⟨h, fun id hid => absurd hid (Finset.notMem_empty id),
    fun id hid => absurd hid (Finset.notMem_empty id), ?_⟩
  intro n call hc id hid
  simp only [opened, Std.ExtTreeMap.getElem?_insert] at hc
  split at hc
  · cases hc
    exact absurd hid (Finset.notMem_empty id)
  · simp at hc

/-- A call that goes on holds ids of its own, every other one those it held. -/
theorem calls_proceed (goesOn : Option DaemonCall) {m : ℕ} {other : DaemonCall}
    (h : (daemon.proceed n goesOn)[m]? = some other) :
    goesOn = some other ∨ daemon.calls[m]? = some other := by
  cases goesOn with
  | none => exact .inr (getElem?_of_erase h)
  | some next =>
    simp only [proceed, Std.ExtTreeMap.getElem?_insert] at h
    split at h
    · exact .inl h
    · exact .inr h

namespace Sound

/-- A call did its section and goes on without new ids. -/
theorem proceed (h : daemon.Sound codec) {store : SecretStore} {created : List ℕ}
    (hs : store.Sound codec created) (he : daemon.store.db.Evolves store.db)
    {goesOn : Option DaemonCall} (hg : ∀ next, goesOn = some next → next.ids = ∅)
    (records : List NativeRecord) :
    { daemon with store, created, records, calls := daemon.proceed n goesOn }.Sound codec := by
  refine ⟨hs, fun id hid => (h.objects id hid).evolves he,
    fun id hid => (h.registered id hid).evolves he, ?_⟩
  intro m other ho id hid
  rcases calls_proceed _ ho with hn | hc
  · rw [hg other hn] at hid
    exact absurd hid (Finset.notMem_empty id)
  · exact (h.calls m other hc id hid).evolves he

theorem begin (h : daemon.Sound codec) {call : DaemonCall}
    (hi : ∀ id ∈ call.ids, daemon.store.db.PublicId id)
    (hb : daemon.begin n call = some daemon') : daemon'.Sound codec := by
  unfold SecretDaemon.begin at hb
  split at hb
  · cases hb
  · cases hb
    refine ⟨h.store, h.objects, h.registered, ?_⟩
    intro m other ho id hid
    rcases calls_proceed (some call) ho with hn | hc
    · cases hn
      exact hi id hid
    · exact h.calls m other hc id hid

theorem ids_syncingIf {goesOn : Bool} {next : DaemonCall} (h : syncingIf goesOn = some next) :
    next.ids = ∅ := by
  cases goesOn with
  | false => cases h
  | true =>
    cases h
    rfl

theorem serveCall (h : daemon.Sound codec) {call : DaemonCall} (hc : daemon.calls[n]? = some call)
    (hs : daemon.serveCall codec base64 n session now around call = some daemon') :
    daemon'.Sound codec := by
  have hr := Evolves.refl daemon.store.db
  cases call with
  | bus call =>
    cases hs
    obtain ⟨hst, he⟩ := h.store.served
      (serve_public codec session now around h.store.memory (h.calls n _ hc))
    exact h.proceed hst he (fun next hn => ids_syncingIf hn) daemon.records
  | collecting ps found =>
    cases ps with
    | nil =>
      cases hs
      exact h.proceed h.store hr (fun next hn => by cases hn) daemon.records
    | cons path ps =>
      simp only [SecretDaemon.serveCall] at hs
      split at hs
      · cases hs
        refine h.proceed h.store hr ?_ daemon.records
        rintro next ⟨⟩
        rfl
      · split at hs
        · cases hs
          exact h.proceed h.store hr (fun next hn => by cases hn) daemon.records
        · cases hs
          refine h.proceed h.store hr ?_ daemon.records
          rintro next ⟨⟩
          rfl
  | native ident req =>
    cases hs
    obtain ⟨hst, he⟩ := h.store.dispatch base64 daemon.acl ident req now around
    exact h.proceed hst he (fun next hn => ids_syncingIf hn) _
  | syncing => cases hs
  | applying tk ids => cases hs

theorem applySnapshot (h : daemon.Sound codec) {tk : ℕ} {ids : Finset ℕ}
    (hc : daemon.calls[n]? = some (.applying tk ids)) (failed : Option (Finset ℕ)) :
    (daemon.applySnapshot n ids failed).Sound codec := by
  have hi := h.calls n _ hc
  have hca : ∀ (m : ℕ) (other : DaemonCall), (daemon.proceed n none)[m]? = some other →
      ∀ id ∈ other.ids, daemon.store.db.PublicId id := by
    intro m other ho id hid
    rcases calls_proceed _ ho with hn | hc
    · cases hn
    · exact h.calls m other hc id hid
  cases failed with
  | none =>
    refine ⟨h.store, ?_, hi, hca⟩
    intro id hid
    rcases Finset.mem_union.mp (Finset.mem_sdiff.mp hid).1 with hid | hid
    · exact h.objects id hid
    · exact hi id (Finset.mem_sdiff.mp hid).1
  | some added =>
    refine ⟨h.store, ?_, h.registered, hca⟩
    intro id hid
    rcases Finset.mem_union.mp hid with hid | hid
    · exact h.objects id hid
    · exact hi id (Finset.mem_sdiff.mp (Finset.mem_inter.mp hid).2).1

theorem restart (h : daemon.Sound codec) {imported : Option (List ImportedItem)}
    (hs : daemon.restart codec imported now around = some daemon') : daemon'.Sound codec := by
  unfold SecretDaemon.restart at hs
  cases ho : SecretStore.openStore codec daemon.store.file with
  | error error =>
    rw [ho] at hs
    cases hs
  | ok store =>
    have hst := h.store.openStore ho
    rw [ho] at hs
    cases imported with
    | none =>
      cases hs
      exact sound_opened hst _ _
    | some its =>
      have ha := hst.importInto its now around
      dsimp only at hs
      cases hr : SecretStore.openStore codec
          (importInto codec store its now around).1.file with
      | error error =>
        rw [hr] at hs
        cases hs
      | ok reopened =>
        rw [hr] at hs
        cases hs
        exact sound_opened (ha.openStore hr) _ _

end Sound

theorem step_sound (hs : daemon.step codec base64 ev = some daemon')
    (h : daemon.Sound codec) : daemon'.Sound codec := by
  cases ev with
  | reloadAcl acl =>
    cases hs
    exact ⟨h.store, h.objects, h.registered, h.calls⟩
  | busCall n call =>
    simp only [step] at hs
    split at hs
    · rename_i hob
      refine h.begin ?_ hs
      intro id hid
      cases call with
      | item other method =>
        obtain rfl := Finset.mem_singleton.mp hid
        exact h.objects id (by simpa [BusCall.dispatchable] using hob)
      | _ => exact absurd hid (Finset.notMem_empty id)
    · cases hs
  | getSecrets n ps =>
    refine h.begin ?_ hs
    intro id hid
    exact absurd hid (Finset.notMem_empty id)
  | request n ident request =>
    refine h.begin ?_ hs
    intro id hid
    exact absurd hid (Finset.notMem_empty id)
  | serve n session now around =>
    obtain ⟨call, hc, hse⟩ := Option.bind_eq_some_iff.mp hs
    exact h.serveCall hc hse
  | snapshot n =>
    simp only [step] at hs
    split at hs
    · cases hs
      refine ⟨h.store, h.objects, h.registered, ?_⟩
      intro m other ho id hid
      rcases calls_proceed _ ho with hn | hc
      · cases hn
        exact h.store.memory.publicId_of_publicIds hid
      · exact h.calls m other hc id hid
    · cases hs
  | apply n failed =>
    simp only [step] at hs
    split at hs
    · rename_i taken ids hc
      cases hs
      exact h.applySnapshot hc failed
    · cases hs
  | restart imported now around => exact h.restart hs

end SecretDaemon

/-! What a call in flight can see and do. -/

/-- The store as a caller of the surface may know it. -/
def SecretStore.publicPart (store : SecretStore) : SecretStore where
  db := store.db.publicPart
  file := store.file
  limited := (List.length_filter_le _ _).trans store.limited

theorem serveItem_publicPart (hg : store.db.Good) (hid : store.db.PublicId id)
    {m : ItemMethod} (hr : m.reads) :
    (serveItem codec store.publicPart session now around id m).2 =
      (serveItem codec store session now around id m).2 := by
  have hge : store.publicPart.db.get id = store.db.get id :=
    hg.get_publicPart_of_publicId hid
  cases m with
  | getSecret =>
    simp only [serveItem, hge]
    cases store.db.get id <;> rfl
  | delete => cases hr
  | setSecret => cases hr
  | setAttributes => cases hr
  | setLabel => cases hr
  | _ => simp only [serveItem, property, hge]

/-- Calls that read answer as they would if there were no native items. -/
theorem serve_publicPart (hg : store.db.Good) (hi : ∀ id ∈ call.ids, store.db.PublicId id)
    (hr : call.reads) :
    (serve codec store.publicPart session now around call).2 =
      (serve codec store session now around call).2 := by
  cases call with
  | searchItems attrs =>
    simp only [serve, SecretStore.publicPart, hg.searchPublic_publicPart]
  | items =>
    simp only [serve, SecretStore.publicPart, publicItems, publicPart,
      filter_filter, Bool.and_self]
  | createItem => cases hr
  | item id m =>
    exact serveItem_publicPart hg (hi id (Finset.mem_singleton_self id)) hr

variable {reply : BusReply}

theorem persistBus_eq_ok {fail : String → SsError} {ans : τ → BusReply}
    (h : (persistBus codec store around mutation fail ans).2 = .ok reply) :
    ∃ v, (mutation.run store.db).result = .ok v ∧ ans v = reply := by
  unfold persistBus at h
  rcases transaction_cases codec store mutation around with
    ⟨⟨err, he⟩, -, -⟩ | ⟨v, hv, hr, -, -⟩
  · generalize store.transaction codec mutation around = after at he h
    obtain ⟨after, res⟩ := after
    obtain rfl := he
    cases h
  · generalize store.transaction codec mutation around = after at hv h
    obtain ⟨after, res⟩ := after
    obtain rfl := hv
    exact ⟨v, hr, ok.inj h⟩

theorem SecretDb.create_eq_ok {new : NewItem} {v : ℕ × List ℕ}
    (h : (db.create new now).2 = .ok v) : v = (db.nextId, db.replaced new) := by
  rcases db.create_attributes new now with ⟨its, err, -, heq⟩ | ⟨item, -, -, -, heq⟩
  · rw [heq] at h
    cases h
  · rw [heq] at h
    exact (ok.inj h).symm

theorem createItem_eq_ok {l ctype itemType : String} {replace : Bool}
    {attrs : BTreeMap String String} {sec : List UInt8}
    (h : (createItem codec store session now around l attrs sec ctype itemType
      replace).2 = .ok reply) :
    attrs.contains keyAttr = false ∧ ∃ new : NewItem, new.attributes = attrs ∧
      reply = .created store.db.nextId (store.db.replaced new) := by
  unfold createItem at h
  cases hv : validatePublicAttributes attrs with
  | error error =>
    rw [hv] at h
    cases h
  | ok u =>
    refine ⟨contains_of_validatePublicAttributes hv, ?_⟩
    rw [hv] at h
    cases session with
    | error error => cases h
    | ok u =>
      dsimp only at h
      split at h
      · cases h
      · obtain ⟨v, hva, rfl⟩ := persistBus_eq_ok h
        obtain rfl := create_eq_ok hva
        refine ⟨_, ?_, rfl⟩
        rfl

theorem ids_serveItem {m : ItemMethod}
    (h : (serveItem codec store session now around id m).2 = .ok reply) : reply.ids = [] := by
  cases m with
  | delete =>
    simp only [serveItem] at h
    split at h
    · cases h
    · obtain ⟨v, -, rfl⟩ := persistBus_eq_ok h
      rfl
  | getSecret =>
    simp only [serveItem] at h
    split at h
    · cases h
    · cases session with
      | error error => cases h
      | ok u =>
        obtain rfl := ok.inj h
        rfl
  | setSecret sec ctype =>
    simp only [serveItem] at h
    repeat' split at h
    all_goals first
      | cases h
      | obtain ⟨v, -, rfl⟩ := persistBus_eq_ok h
        rfl
  | setAttributes attrs =>
    simp only [serveItem] at h
    repeat' split at h
    all_goals first
      | (cases h; done)
      | (obtain rfl := ok.inj h; rfl)
      | (obtain ⟨v, -, rfl⟩ := persistBus_eq_ok h; rfl)
  | setLabel l =>
    simp only [serveItem] at h
    repeat' split at h
    all_goals first
      | (cases h; done)
      | (obtain rfl := ok.inj h; rfl)
      | (obtain ⟨v, -, rfl⟩ := persistBus_eq_ok h; rfl)
  | _ =>
    obtain rfl := ok.inj h
    rfl

/-- No answer names a native item. -/
theorem publicId_of_reply (hg : store.db.Good)
    (hr : (serve codec store session now around call).2 = .ok reply) :
    ∀ id ∈ reply.ids, ∀ item ∈ store.db.items, item.id = id → item.isPublic := by
  cases call with
  | searchItems attrs =>
    cases hv : validatePublicAttributes attrs with
    | error error =>
      simp [serve, hv, Except.map] at hr
    | ok u =>
      simp only [serve, hv, Except.map, ok.injEq] at hr
      obtain rfl := hr
      intro id hid
      simp only [BusReply.ids, hg.searchPublic_eq, mem_map, mem_filter] at hid
      obtain ⟨item, ⟨hi, hp⟩, rfl⟩ := hid
      exact (hg.publicId hi (Bool.and_eq_true_iff.mp hp).2).isPublic
  | items =>
    obtain rfl := ok.inj hr
    intro id hid
    obtain ⟨item, hi, rfl⟩ := mem_map.mp hid
    obtain ⟨hi, hp⟩ := mem_filter.mp hi
    exact (hg.publicId hi hp).isPublic
  | createItem l attrs sec ctype itemType replace =>
    obtain ⟨hk, new, rfl, rfl⟩ := createItem_eq_ok hr
    intro id hid
    rcases mem_cons.mp hid with rfl | hid
    · intro item hi hs
      have hb := hg.below item hi
      omega
    · exact (publicId_replaced hg hk hid).isPublic
  | item id m =>
    rw [ids_serveItem hr]
    intro other ho
    cases ho

theorem nativeItems_of_servesPublic {served : Served}
    (h : ServesPublic codec store around served) :
    served.1.db.nativeItems = store.db.nativeItems ∧
      (served.1.file = store.file ∨ ∃ db, loadDb codec served.1.file = .ok db ∧
        db.nativeItems = store.db.nativeItems) := by
  rcases h with ⟨hs, -⟩ | ⟨τ, mutation, hm, hs, -⟩
  · rw [hs]
    exact ⟨rfl, .inl rfl⟩
  · rw [hs]
    have hn := hm.nativeItems
    rcases transaction_cases codec store mutation around with
      ⟨-, hdb, hf | hl⟩ | ⟨v, -, -, hdb, hl⟩
    · exact ⟨by rw [hdb], .inl hf⟩
    · exact ⟨by rw [hdb], .inr ⟨_, hl, hn⟩⟩
    · exact ⟨by rw [hdb, hn], .inr ⟨_, hl, hn⟩⟩

/-- The bytes of a text. -/
def utf8 (text : String) : List UInt8 := text.toUTF8.data.toList

/-- Base64 of two letters and of nothing. -/
def sampleBase64 : Base64 where
  encode bytes := if bytes = [104, 105] then "aGk=" else ""
  decode text :=
    if text = "aGk=" then .ok [104, 105]
    else if text = "" then .ok []
    else .error "Invalid symbol"

/-- A note is created on the bus, its object is added, and its secret is asked for. -/
def surfaceEvents : List DaemonEvent :=
  [.busCall 1 (.createItem "note" ∅ [] "text/plain" "org.freedesktop.Secret.Generic" false),
    .serve 1 (.ok ()) 100 nothingFails, .snapshot 1, .apply 1 none, .busCall 2 (.item 1 .getSecret)]

end FocalDesk
