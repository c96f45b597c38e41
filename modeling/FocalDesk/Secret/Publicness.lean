import FocalDesk.Secret.Bus
import FocalDesk.Secret.Invariant

/-! An id that was public once stays public, through everything that is done to the store. -/
namespace FocalDesk
open Library List

variable {τ : Type} {cod : SecretCodec} {db db' next : SecretDb} {id : ℕ} {item : SecretItem}
  {ch : SecretItem → SecretItem} {mutation : Mutation τ}

namespace SecretDb

/-- An id that was handed out, and under which nothing but a public item is stored. -/
structure PublicId (db : SecretDb) (id : ℕ) : Prop where
  below : id < db.nextId
  isPublic : ∀ item ∈ db.items, item.id = id → item.isPublic = true

/-- Items are new or have an item of the same id before them, and public items stay public. -/
structure Evolves (db next : SecretDb) : Prop where
  nextId_le : db.nextId ≤ next.nextId
  items : ∀ item ∈ next.items, db.nextId ≤ item.id ∨
    ∃ old ∈ db.items, old.id = item.id ∧ (old.isPublic = true → item.isPublic = true)

theorem Evolves.refl (db : SecretDb) : db.Evolves db :=
  ⟨le_rfl, fun item hi => .inr ⟨item, hi, rfl, id⟩⟩

theorem Evolves.trans (h : db.Evolves db') (h' : db'.Evolves next) : db.Evolves next := by
  refine ⟨h.nextId_le.trans h'.nextId_le, ?_⟩
  intro item hi
  rcases h'.items item hi with hn | ⟨old, hold, hid, hk⟩
  · exact .inl (h.nextId_le.trans hn)
  · rcases h.items old hold with hn | ⟨older, holder, hid', hk'⟩
    · exact .inl (hid ▸ hn)
    · exact .inr ⟨older, holder, hid'.trans hid, fun hp => hk (hk' hp)⟩

theorem PublicId.evolves (h : db.PublicId id) (hn : db.Evolves next) : next.PublicId id := by
  refine ⟨h.below.trans_le hn.nextId_le, ?_⟩
  rintro item hi rfl
  rcases hn.items item hi with hne | ⟨old, hold, hid, hk⟩
  · have hb := h.below
    omega
  · exact hk (h.isPublic old hold hid)

theorem evolves_of_subset {items : List SecretItem} (h : items ⊆ db.items) :
    db.Evolves { db with items } :=
  ⟨le_rfl, fun item hi => .inr ⟨item, h hi, rfl, fun hp => hp⟩⟩

theorem evolves_delete (db : SecretDb) (id : ℕ) : db.Evolves (db.delete id).1 :=
  evolves_of_subset filter_sublist.subset

theorem mem_modifyFirst {items : List SecretItem} (h : item ∈ modifyFirst id ch items) :
    ∃ old ∈ items, item = old ∨ item = ch old := by
  induction items with
  | nil => cases h
  | cons fst items ih =>
    simp only [modifyFirst] at h
    split at h
    · rcases mem_cons.mp h with rfl | h
      · exact ⟨fst, mem_cons_self, .inr rfl⟩
      · exact ⟨item, mem_cons_of_mem _ h, .inl rfl⟩
    · rcases mem_cons.mp h with rfl | h
      · exact ⟨item, mem_cons_self, .inl rfl⟩
      · obtain ⟨old, hold, hi⟩ := ih h
        exact ⟨old, mem_cons_of_mem _ hold, hi⟩

theorem evolves_modify (db : SecretDb) (id : ℕ) (hid : ∀ item : SecretItem, (ch item).id = item.id)
    (hk : ∀ item : SecretItem, item.isPublic → (ch item).isPublic) :
    db.Evolves (db.modify id ch).1 := by
  refine ⟨le_rfl, ?_⟩
  intro item hi
  obtain ⟨old, hold, rfl | rfl⟩ := mem_modifyFirst hi
  · exact .inr ⟨item, hold, rfl, fun hp => hp⟩
  · exact .inr ⟨old, hold, (hid old).symm, hk old⟩

/-- The items that `create` does not replace. -/
def kept (db : SecretDb) (new : NewItem) : List SecretItem :=
  db.items.filter fun item => !(db.replaced new).contains item.id

/-- What `create` leaves: the items, or those it keeps, or these and one that carries the new
attributes. -/
theorem create_attributes (db : SecretDb) (new : NewItem) (now : ℕ) :
    (∃ items err, (items = db.items ∨ items = db.kept new) ∧
      db.create new now = ({ db with items }, .error err)) ∨
    ∃ item, item.id = db.nextId ∧ item.attributes = new.attributes ∧
      item.value = (new.secret, new.contentType) ∧
      db.create new now =
        ({ nextId := db.nextId + 1, items := db.kept new ++ [item] },
          .ok (db.nextId, db.replaced new)) := by
  unfold create
  dsimp only
  split
  · exact .inl ⟨db.items, _, .inl rfl, rfl⟩
  · have hi : (if (db.replaced new).isEmpty then db.items
        else db.items.filter fun item => !(db.replaced new).contains item.id) = db.kept new := by
      unfold kept
      by_cases he : (db.replaced new).isEmpty
      · rw [if_pos he, List.isEmpty_iff.mp he]
        simp
      · rw [if_neg he]
    rw [hi]
    cases hn : checkedSucc db.nextId with
    | some next =>
      obtain ⟨-, rfl⟩ := checkedSucc_eq_some.mp hn
      exact .inr ⟨_, rfl, rfl, rfl, rfl⟩
    | none => exact .inl ⟨_, _, .inr rfl, rfl⟩

theorem evolves_create (db : SecretDb) (new : NewItem) (now : ℕ) :
    db.Evolves (db.create new now).1 := by
  rcases db.create_attributes new now with ⟨items, err, hi, heq⟩ | ⟨item, hid, -, -, heq⟩
  · rw [heq]
    apply evolves_of_subset
    rcases hi with rfl | rfl
    · exact List.Subset.refl _
    · exact filter_sublist.subset
  · rw [heq]
    refine ⟨Nat.le_succ _, ?_⟩
    intro other ho
    rcases mem_append.mp ho with ho | ho
    · exact .inr ⟨other, filter_sublist.subset ho, rfl, fun hp => hp⟩
    · obtain rfl := mem_singleton.mp ho
      exact .inl hid.ge

/-- An id handed out for attributes without a key is public. -/
theorem publicId_create (h : db.Good) {new : NewItem} {now : ℕ}
    (hn : new.attributes.contains keyAttr = false)
    (hid : id ∈ createdId (db.create new now).2) : (db.create new now).1.PublicId id := by
  rcases db.create_attributes new now with
    ⟨items, err, -, heq⟩ | ⟨item, hi, ha, -, heq⟩
  · rw [heq] at hid
    cases hid
  · rw [heq] at hid ⊢
    obtain rfl := mem_singleton.mp hid
    refine ⟨Nat.lt_succ_self _, ?_⟩
    intro other ho hs
    rcases mem_append.mp ho with ho | ho
    · have hb := h.below other (filter_sublist.subset ho)
      omega
    · obtain rfl := mem_singleton.mp ho
      simp [SecretItem.isPublic, ha, hn]

end SecretDb

/-! Closures that take no key. -/

namespace Mutation

/-- No item is given the attributes of a native one. -/
def KeepsPublic : Mutation τ → Prop
  | .done _ => True
  | .items next => ∀ items, (next items).KeepsPublic
  | .create _ _ next => ∀ created, (next created).KeepsPublic
  | .setSecret _ _ _ _ next => ∀ found, (next found).KeepsPublic
  | .setAttributes _ attributes _ next =>
    attributes.contains keyAttr = false ∧ ∀ found, (next found).KeepsPublic
  | .setLabel _ _ _ next => ∀ found, (next found).KeepsPublic
  | .delete _ next => ∀ found, (next found).KeepsPublic

/-- No item is created or given attributes with a key. -/
def OnlyPublic : Mutation τ → Prop
  | .done _ => True
  | .items next => ∀ items, (next items).OnlyPublic
  | .create new _ next =>
    new.attributes.contains keyAttr = false ∧ ∀ created, (next created).OnlyPublic
  | .setSecret _ _ _ _ next => ∀ found, (next found).OnlyPublic
  | .setAttributes _ attributes _ next =>
    attributes.contains keyAttr = false ∧ ∀ found, (next found).OnlyPublic
  | .setLabel _ _ _ next => ∀ found, (next found).OnlyPublic
  | .delete _ next => ∀ found, (next found).OnlyPublic

theorem OnlyPublic.keepsPublic (h : mutation.OnlyPublic) : mutation.KeepsPublic := by
  induction mutation with
  | done res => trivial
  | items next ih => exact fun items => ih items (h items)
  | create new now next ih => exact fun created => ih created (h.2 created)
  | setSecret id sec ctype now next ih => exact fun found => ih found (h found)
  | setAttributes id attrs now next ih => exact ⟨h.1, fun found => ih found (h.2 found)⟩
  | setLabel id l now next ih => exact fun found => ih found (h found)
  | delete id next ih => exact fun found => ih found (h found)

theorem KeepsPublic.evolves (h : mutation.KeepsPublic) (db : SecretDb) :
    db.Evolves (mutation.run db).db := by
  induction mutation generalizing db with
  | done res => exact SecretDb.Evolves.refl db
  | items next ih => exact ih _ (h _) db
  | create new now next ih => exact (db.evolves_create new now).trans (ih _ (h _) _)
  | setSecret id sec ctype now next ih =>
    have hs : db.Evolves (db.setSecret id sec ctype now).1 :=
      db.evolves_modify id (fun _ => rfl) fun _ hp => hp
    exact hs.trans (ih _ (h _) _)
  | setAttributes id attrs now next ih =>
    have hs : db.Evolves (db.setAttributes id attrs now).1 := by
      refine db.evolves_modify id (fun _ => rfl) ?_
      intro item hp
      simp [SecretItem.isPublic, h.1]
    exact hs.trans (ih _ (h.2 _) _)
  | setLabel id l now next ih =>
    have hs : db.Evolves (db.setLabel id l now).1 :=
      db.evolves_modify id (fun _ => rfl) fun _ hp => hp
    exact hs.trans (ih _ (h _) _)
  | delete id next ih => exact (db.evolves_delete id).trans (ih _ (h _) _)

/-- The ids that such a closure is handed out are public afterwards. -/
theorem OnlyPublic.publicId (h : mutation.OnlyPublic) (hg : db.Good) :
    ∀ id ∈ (mutation.run db).handedOut, (mutation.run db).db.PublicId id := by
  induction mutation generalizing db with
  | done res =>
    intro id hid
    cases hid
  | items next ih => exact ih _ (h _) hg
  | create new now next ih =>
    intro id hid
    rcases mem_append.mp hid with hid | hid
    · exact (SecretDb.publicId_create hg h.1 hid).evolves ((h.2 _).keepsPublic.evolves _)
    · exact ih _ (h.2 _) (hg.create new now) id hid
  | setSecret id sec ctype now next ih => exact ih _ (h _) (hg.modify id fun _ => rfl)
  | setAttributes id attrs now next ih => exact ih _ (h.2 _) (hg.modify id fun _ => rfl)
  | setLabel id l now next ih => exact ih _ (h _) (hg.modify id fun _ => rfl)
  | delete id next ih => exact ih _ (h _) (hg.delete id)

end Mutation

theorem keepsPublic_deleteAll (ids : List ℕ) (h : mutation.KeepsPublic) :
    (deleteAll ids mutation).KeepsPublic := by
  induction ids with
  | nil => exact h
  | cons id ids ih => exact fun _ => ih

theorem keepsPublic_setMutation (key : String) (new : NewItem) (now : ℕ) :
    (setMutation key new now).KeepsPublic :=
  fun _ => keepsPublic_deleteAll _ fun _ => trivial

theorem keepsPublic_deleteMutation (ids : List ℕ) : (deleteMutation ids).KeepsPublic :=
  keepsPublic_deleteAll ids trivial

theorem contains_keyAttr_newItem (imported : ImportedItem) :
    imported.newItem.attributes.contains keyAttr = false := by
  have hne : sourceAttr ≠ keyAttr := by decide
  simp [ImportedItem.newItem, Std.ExtTreeMap.contains_insert, Std.ExtTreeMap.contains_erase, hne]

theorem onlyPublic_importMutation (now : ℕ) (imported : List ImportedItem) :
    (importMutation now imported).OnlyPublic := by
  induction imported with
  | nil => trivial
  | cons item rest ih =>
    intro items
    dsimp only
    split
    · exact ih
    · refine ⟨contains_keyAttr_newItem item, ?_⟩
      intro created
      cases created with
      | error error => trivial
      | ok v => exact ih

end FocalDesk
