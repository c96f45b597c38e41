import FocalDesk.Secret.Daemon
import FocalDesk.Secret.Publicness

/-! Native items and the D-Bus surface: no call reads, changes or removes one, in any run. -/
namespace FocalDesk
open Library List

variable {τ : Type} {codec : SecretCodec} {base64 : Base64} {acl : AclConfig} {db : SecretDb}
  {id now : ℕ} {item : SecretItem} {ch : SecretItem → SecretItem} {mutation : Mutation τ}
  {store : SecretStore} {sess : Except SsError Unit} {around : PersistSurroundings}
  {call : BusCall} {dm daemon' : SecretDaemon} {ev : DaemonEvent} {evs : List DaemonEvent}
  {created : List ℕ}

namespace SecretDb

def nativeItems (db : SecretDb) : List SecretItem := db.items.filter fun item => !item.isPublic

/-- The database without its native items. -/
def publicPart (db : SecretDb) : SecretDb := { db with items := db.publicItems }

theorem Good.restrict (h : db.Good) : db.publicPart.Good := h.keep filter_sublist

theorem Good.eq_of_id (h : db.Good) {item other : SecretItem} (hi : item ∈ db.items)
    (ho : other ∈ db.items) (hid : item.id = other.id) : item = other :=
  inj_on_of_nodup_map h.distinct hi ho hid

theorem Good.get_of_mem (h : db.Good) (hi : item ∈ db.items) : db.get item.id = some item := by
  have hf : (db.get item.id).isSome := by
    simp only [get, find?_isSome]
    exact ⟨item, hi, beq_self_eq_true _⟩
  obtain ⟨found, hg⟩ := Option.isSome_iff_exists.mp hf
  have hid : found.id = item.id := by simpa using find?_some hg
  rw [hg, h.eq_of_id (mem_of_find?_eq_some hg) hi hid]

theorem mem_of_get (h : db.get id = some item) : item ∈ db.items ∧ item.id = id :=
  ⟨mem_of_find?_eq_some h, by simpa using find?_some h⟩

theorem Good.publicId (h : db.Good) (hi : item ∈ db.items) (hp : item.isPublic) :
    db.PublicId item.id := by
  refine ⟨h.below item hi, ?_⟩
  intro other ho hid
  obtain rfl := h.eq_of_id ho hi hid
  exact hp

theorem Good.publicId_of_publicIds (h : db.Good) (hid : id ∈ db.publicIds) : db.PublicId id := by
  simp only [publicIds, publicItems, mem_toFinset, mem_map, mem_filter] at hid
  obtain ⟨item, ⟨hi, hp⟩, rfl⟩ := hid
  exact h.publicId hi hp

theorem Good.searchPublic_eq (h : db.Good) (attrs : BTreeMap String String) :
    db.searchPublic attrs = (db.items.filter fun item => (attrs.toList.all fun wanted =>
      item.attributes[wanted.1]? == some wanted.2) && item.isPublic).map SecretItem.id := by
  unfold searchPublic search searchItems
  rw [filter_map, filter_filter]
  congr 1
  apply filter_congr
  intro item hi
  rw [Function.comp_apply, h.get_of_mem hi, Bool.and_comm]
  rfl

theorem Good.get_publicPart (h : db.Good) (id : ℕ) :
    db.publicPart.get id = (db.get id).filter SecretItem.isPublic := by
  cases hg : db.get id with
  | none =>
    have hn : ∀ item ∈ db.items, ¬ (item.id == id) := find?_eq_none.mp hg
    refine find?_eq_none.mpr ?_
    intro item hi
    exact hn item (filter_sublist.subset hi)
  | some item =>
    obtain ⟨hi, rfl⟩ := mem_of_get hg
    by_cases hp : item.isPublic
    · have hm : item ∈ db.publicPart.items := mem_filter.mpr ⟨hi, hp⟩
      rw [h.restrict.get_of_mem hm, Option.filter_some, if_pos hp]
    · rw [Option.filter_some, if_neg hp]
      refine find?_eq_none.mpr ?_
      intro other hot hs
      obtain ⟨hot, ho⟩ := mem_filter.mp hot
      obtain rfl := h.eq_of_id hot hi (by simpa using hs)
      exact hp ho

theorem Good.get_publicPart_of_publicId (h : db.Good) (hid : db.PublicId id) :
    db.publicPart.get id = db.get id := by
  rw [h.get_publicPart]
  cases hg : db.get id with
  | none => rfl
  | some item =>
    obtain ⟨hi, hs⟩ := mem_of_get hg
    rw [Option.filter_some, if_pos (hid.isPublic item hi hs)]

theorem Good.searchPublic_publicPart (h : db.Good) (attrs : BTreeMap String String) :
    db.publicPart.searchPublic attrs = db.searchPublic attrs := by
  rw [h.restrict.searchPublic_eq, h.searchPublic_eq]
  simp only [publicPart, publicItems, filter_filter]
  congr 1
  apply filter_congr
  intro item hi
  rw [Bool.and_assoc, Bool.and_self]

/-- `get_secrets` cannot tell whether there are native items. -/
theorem Good.secretAt_publicPart (h : db.Good) (path : String) :
    db.publicPart.secretAt path = db.secretAt path := by
  unfold secretAt
  cases itemId path with
  | none => rfl
  | some id =>
    simp only [Option.bind_some, h.get_publicPart]
    cases hg : db.get id with
    | none => rfl
    | some item => by_cases hp : item.isPublic <;> simp [Option.filter_some, hp]

/-! Native items that operations of the surface leave alone. -/

theorem nativeItems_delete (hid : db.PublicId id) :
    (db.delete id).1.nativeItems = db.nativeItems := by
  simp only [nativeItems, delete, filter_filter]
  apply filter_congr
  intro item hi
  by_cases hs : item.id = id
  · simp [hid.isPublic item hi hs]
  · simp [hs]

theorem filter_native_modifyFirst {its : List SecretItem}
    (hid : ∀ item ∈ its, item.id = id → item.isPublic)
    (hk : ∀ item : SecretItem, item.isPublic → (ch item).isPublic) :
    (modifyFirst id ch its).filter (fun item => !item.isPublic) =
      its.filter fun item => !item.isPublic := by
  induction its with
  | nil => rfl
  | cons item its ih =>
    obtain ⟨hi, hit⟩ := forall_mem_cons.mp hid
    simp only [modifyFirst]
    split
    · rename_i hs
      simp [hi hs, hk item (hi hs)]
    · simp only [filter_cons, ih hit]

theorem nativeItems_modify (hid : db.PublicId id)
    (hk : ∀ item : SecretItem, item.isPublic → (ch item).isPublic) :
    (db.modify id ch).1.nativeItems = db.nativeItems :=
  filter_native_modifyFirst hid.isPublic hk

/-- What a new item without a key replaces is public. -/
theorem publicId_replaced (h : db.Good) {new : NewItem}
    (hn : new.attributes.contains keyAttr = false) (hid : id ∈ db.replaced new) :
    db.PublicId id := by
  unfold replaced at hid
  split at hid
  · obtain ⟨item, hi, rfl⟩ := mem_map.mp hid
    obtain ⟨hi, hs⟩ := mem_filter.mp hi
    refine h.publicId hi ?_
    rw [SecretItem.isPublic, eq_of_beq hs, hn, Bool.not_false]
  · cases hid

theorem filter_native_kept (h : db.Good) {new : NewItem}
    (hn : new.attributes.contains keyAttr = false) :
    (db.kept new).filter (fun item => !item.isPublic) = db.nativeItems := by
  simp only [kept, nativeItems, filter_filter]
  apply filter_congr
  intro item hi
  by_cases hr : item.id ∈ db.replaced new
  · simp [(publicId_replaced h hn hr).isPublic item hi rfl]
  · simp [hr]

theorem nativeItems_create (h : db.Good) {new : NewItem}
    (hn : new.attributes.contains keyAttr = false) :
    (db.create new now).1.nativeItems = db.nativeItems := by
  have hk := filter_native_kept h hn
  rcases db.create_attributes new now with
    ⟨its, err, rfl | rfl, heq⟩ | ⟨item, -, ha, -, heq⟩
  · rw [heq]
  · rw [heq]
    exact hk
  · have hp : item.isPublic := by simp [SecretItem.isPublic, ha, hn]
    rw [heq, ← hk]
    simp [nativeItems, hp]

end SecretDb

/-! One section under the store lock. -/

/-- What every closure of the surface does, given the item ids of its call. -/
structure LeavesNative (db : SecretDb) (mutation : Mutation τ) : Prop where
  onlyPublic : mutation.OnlyPublic
  nativeItems : (mutation.run db).db.nativeItems = db.nativeItems

/-- The ids of item objects that a call is about. -/
def BusCall.ids : BusCall → Finset ℕ
  | .item id _ => {id}
  | _ => ∅

/-- The ids in an answer. -/
def BusReply.ids : BusReply → List ℕ
  | .paths ids => ids
  | .created id replaced => id :: replaced
  | _ => []

def ItemMethod.reads : ItemMethod → Bool
  | .delete => false
  | .setSecret .. => false
  | .setAttributes _ => false
  | .setLabel _ => false
  | _ => true

/-- The calls that only read. -/
def BusCall.reads : BusCall → Bool
  | .createItem .. => false
  | .item _ method => method.reads
  | _ => true

/-- What a section of a call leaves: the store as it was, or one transaction on it; the ids that
are handed out are those of a transaction that succeeded. -/
def ServesPublic (codec : SecretCodec) (store : SecretStore) (around : PersistSurroundings)
    (served : Served) : Prop :=
  served.1 = store ∧ createdIds served.2 = [] ∨
    ∃ (τ : Type) (mutation : Mutation τ), LeavesNative store.db mutation ∧
      served.1 = (store.transaction codec mutation around).1 ∧
      ∀ id ∈ createdIds served.2, (store.transaction codec mutation around).2.isOk = true ∧
        id ∈ (mutation.run store.db).handedOut

theorem servesPublic_error (err : SsError) :
    ServesPublic codec store around (store, .error err) := .inl ⟨rfl, rfl⟩

theorem servesPublic_persistBus {fail : String → SsError} {reply : τ → BusReply}
    (hm : LeavesNative store.db mutation)
    (hr : ∀ v, (mutation.run store.db).result = .ok v →
      ∀ id ∈ (reply v).createdId, id ∈ (mutation.run store.db).handedOut) :
    ServesPublic codec store around (persistBus codec store around mutation fail reply) := by
  refine .inr ⟨τ, mutation, hm, ?_⟩
  unfold persistBus
  rcases transaction_cases codec store mutation around with
    ⟨⟨err, he⟩, -, -⟩ | ⟨v, hv, hre, -, -⟩
  · generalize store.transaction codec mutation around = after at he ⊢
    obtain ⟨after, res⟩ := after
    obtain rfl := he
    exact ⟨rfl, fun id hid => absurd hid not_mem_nil⟩
  · have hi := hr v hre
    generalize store.transaction codec mutation around = after at hv ⊢
    obtain ⟨after, res⟩ := after
    obtain rfl := hv
    exact ⟨rfl, fun id hid => ⟨rfl, hi id hid⟩⟩

theorem contains_of_validatePublicAttributes {attrs : BTreeMap String String} {u : Unit}
    (h : validatePublicAttributes attrs = .ok u) : attrs.contains keyAttr = false := by
  unfold validatePublicAttributes at h
  split at h
  · cases h
  · rename_i hk
    exact Bool.eq_false_iff.mpr hk

theorem createItem_public (hg : store.db.Good) (l : String) (attrs : BTreeMap String String)
    (sec : List UInt8) (ctype itemType : String) (replace : Bool) : ServesPublic codec store around
      (createItem codec store sess now around l attrs sec ctype itemType replace) := by
  unfold createItem
  cases hva : validatePublicAttributes attrs with
  | error error => exact servesPublic_error error
  | ok u =>
    cases sess with
    | error error => exact servesPublic_error error
    | ok u =>
      dsimp only
      split
      · exact servesPublic_error _
      · have hn := contains_of_validatePublicAttributes hva
        apply servesPublic_persistBus
        · exact ⟨⟨hn, fun _ => trivial⟩, SecretDb.nativeItems_create hg hn⟩
        · intro v hv id hid
          obtain rfl := mem_singleton.mp hid
          have hv : (store.db.create _ now).2 = .ok v := hv
          simp [Mutation.run, hv, createdId]

theorem serveItem_public (hid : store.db.PublicId id) (m : ItemMethod) :
    ServesPublic codec store around (serveItem codec store sess now around id m) := by
  cases m with
  | delete =>
    simp only [serveItem]
    split
    · exact servesPublic_error _
    · apply servesPublic_persistBus
      · exact ⟨fun _ => trivial, SecretDb.nativeItems_delete hid⟩
      · intro v hv id hid
        cases hid
  | getSecret =>
    simp only [serveItem]
    split
    · exact servesPublic_error _
    · refine .inl ⟨rfl, ?_⟩
      cases sess <;> rfl
  | setSecret sec ctype =>
    cases sess with
    | error error => exact servesPublic_error error
    | ok u =>
      simp only [serveItem]
      split
      · exact servesPublic_error _
      · split
        · exact servesPublic_error _
        · apply servesPublic_persistBus
          · exact ⟨fun _ => trivial, SecretDb.nativeItems_modify hid fun _ hp => hp⟩
          · intro v hv id hid
            cases hid
  | setAttributes attributes =>
    simp only [serveItem]
    cases hva : validatePublicAttributes attributes with
    | error error => exact servesPublic_error _
    | ok u =>
      have hn := contains_of_validatePublicAttributes hva
      dsimp only
      split
      · exact .inl ⟨rfl, rfl⟩
      · apply servesPublic_persistBus
        · refine ⟨⟨hn, fun _ => trivial⟩, SecretDb.nativeItems_modify hid ?_⟩
          intro item hp
          simp [SecretItem.isPublic, hn]
        · intro v hv id hid
          cases hid
  | setLabel label =>
    simp only [serveItem]
    split
    · exact servesPublic_error _
    · split
      · exact .inl ⟨rfl, rfl⟩
      · apply servesPublic_persistBus
        · exact ⟨fun _ => trivial, SecretDb.nativeItems_modify hid fun _ hp => hp⟩
        · intro v hv id hid
          cases hid
  | attributes => exact .inl ⟨rfl, rfl⟩
  | label => exact .inl ⟨rfl, rfl⟩
  | created => exact .inl ⟨rfl, rfl⟩
  | modified => exact .inl ⟨rfl, rfl⟩
  | itemType => exact .inl ⟨rfl, rfl⟩

theorem serve_public (codec : SecretCodec) (sess : Except SsError Unit) (now : ℕ)
    (around : PersistSurroundings) (hg : store.db.Good) (hi : ∀ id ∈ call.ids, store.db.PublicId id)
    :
    ServesPublic codec store around (serve codec store sess now around call) := by
  cases call with
  | searchItems attrs =>
    refine .inl ⟨rfl, ?_⟩
    cases hv : validatePublicAttributes attrs <;> simp [serve, hv, createdIds,
      BusReply.createdId, Except.map]
  | items => exact .inl ⟨rfl, rfl⟩
  | createItem l attrs sec ctype itemType replace =>
    exact createItem_public hg l attrs sec ctype itemType replace
  | item id m => exact serveItem_public (hi id (Finset.mem_singleton_self id)) m

end FocalDesk
