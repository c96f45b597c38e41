import FocalDesk.Secret.Surface
import Mathlib.Logic.Function.Basic

/-! The native items as a map from keys, and what requests do to it. -/
namespace FocalDesk
open Library List Function

variable {cod : SecretCodec} {base64 : Base64} {acl : AclConfig} {db db' : SecretDb}
  {key other : String} {item : SecretItem} {sto : SecretStore} {env : PersistSurroundings}
  {now : ℕ}

def SecretItem.hasKey (key : String) (item : SecretItem) : Bool :=
  item.attributes[keyAttr]? == some key

/-- What is stored under each key. -/
def SecretDb.vault (db : SecretDb) (key : String) : Option SecretValue :=
  (db.items.find? (SecretItem.hasKey key)).map SecretItem.value

/-- No two items carry the same key. -/
def SecretDb.OnePerKey (db : SecretDb) : Prop :=
  ∀ item ∈ db.items, ∀ other ∈ db.items, ∀ key, item.hasKey key = true →
    other.hasKey key = true → item = other

theorem isPublic_of_hasKey (h : item.hasKey key) : item.isPublic = false := by
  have hk : item.attributes[keyAttr]? = some key := eq_of_beq h
  have hm : keyAttr ∈ item.attributes := mem_of_getElem? hk
  simp [SecretItem.isPublic, hm]

theorem eq_of_hasKey (h : item.hasKey key) (h' : item.hasKey other) :
    key = other :=
  Option.some.inj ((eq_of_beq h).symm.trans (eq_of_beq h'))

namespace SecretDb

/-! Both are about the native items only. -/

theorem vault_of_nativeItems (h : db'.nativeItems = db.nativeItems) : db'.vault = db.vault := by
  have hv (db : SecretDb) (key : String) :
      db.vault key = (db.nativeItems.find? (SecretItem.hasKey key)).map SecretItem.value := by
    unfold vault nativeItems
    rw [find?_filter]
    congr 2
    funext item
    cases hk : item.hasKey key with
    | false => simp
    | true => simp [isPublic_of_hasKey hk]
  funext key
  rw [hv, hv, h]

theorem onePerKey_of_nativeItems (h : db'.nativeItems = db.nativeItems) (hon : db.OnePerKey) :
    db'.OnePerKey := by
  have hm : ∀ item ∈ db'.items, ∀ key, item.hasKey key → item ∈ db.items := by
    intro item hi key hk
    have hn : item ∈ db'.nativeItems := mem_filter.mpr ⟨hi, by rw [isPublic_of_hasKey hk]; rfl⟩
    rw [h] at hn
    exact filter_sublist.subset hn
  intro item hi other ho key hk hk'
  exact hon item (hm item hi key hk) other (hm other ho key hk') key hk hk'

/-! Looking a key up. -/

theorem all_keyOnly (key : String) (test : String × String → Bool) :
    (keyOnly key).toList.all test = test (keyAttr, key) := by
  rw [Bool.eq_iff_iff, all_eq_true]
  constructor
  · intro h
    apply h
    rw [Std.ExtTreeMap.mem_toList_iff_getElem?_eq_some]
    simp [keyOnly]
  · rintro h ⟨name, v⟩ hm
    rw [Std.ExtTreeMap.mem_toList_iff_getElem?_eq_some] at hm
    simp only [keyOnly, Std.ExtTreeMap.getElem?_insert] at hm
    split at hm
    · rename_i heq
      cases hm
      obtain rfl : keyAttr = name := Std.LawfulEqOrd.eq_of_compare heq
      exact h
    · simp at hm

theorem searchItems_keyOnly (items : List SecretItem) (key : String) :
    searchItems items (keyOnly key) = (items.filter (SecretItem.hasKey key)).map SecretItem.id := by
  unfold searchItems
  congr 2
  funext item
  rw [all_keyOnly]
  rfl

/-- `Get` finds the item under the key. -/
theorem Good.lookup (h : db.Good) (key : String) :
    (db.search (keyOnly key)).head?.bind db.get = db.items.find? (SecretItem.hasKey key) := by
  rw [search, searchItems_keyOnly, head?_map, head?_filter]
  cases hf : db.items.find? (SecretItem.hasKey key) with
  | none => rfl
  | some item => exact h.get_of_mem (mem_of_find?_eq_some hf)

/-- `Set` and `Delete` remove the items under the key. -/
theorem Good.filter_searched (h : db.Good) (key : String) :
    (db.items.filter fun item => !(db.search (keyOnly key)).contains item.id) =
      db.items.filter fun item => !item.hasKey key := by
  apply filter_congr
  intro item hi
  congr 1
  rw [Bool.eq_iff_iff, search, searchItems_keyOnly, contains_iff_mem, mem_map]
  constructor
  · rintro ⟨other, ho, hid⟩
    obtain ⟨ho, hk⟩ := mem_filter.mp ho
    obtain rfl := h.eq_of_id ho hi hid
    exact hk
  · intro hk
    exact ⟨item, mem_filter.mpr ⟨hi, hk⟩, rfl⟩

/-- The database without the items under a key. -/
def without (db : SecretDb) (key : String) : SecretDb :=
  { db with items := db.items.filter fun item => !item.hasKey key }

theorem vault_without (db : SecretDb) (key : String) :
    (db.without key).vault = update db.vault key none := by
  funext other
  unfold vault SecretDb.without
  dsimp only
  rw [find?_filter]
  by_cases hs : other = key
  · subst hs
    rw [update_self]
    rw [Option.map_eq_none_iff, find?_eq_none]
    intro item hi hb
    cases hk : item.hasKey other <;> simp [hk] at hb
  · rw [update_of_ne hs]
    congr 2
    funext item
    cases hk : item.hasKey other with
    | false => simp
    | true =>
      have ho : item.hasKey key = false := by
        refine Bool.eq_false_iff.mpr ?_
        intro hk'
        exact hs (eq_of_hasKey hk hk')
      simp [ho]

theorem onePerKey_without (h : db.OnePerKey) (key : String) : (db.without key).OnePerKey := by
  intro item hi other ho
  exact h item (filter_sublist.subset hi) other (filter_sublist.subset ho)

/-! Storing under a key. -/

theorem vault_append {items : List SecretItem}
    (hk : item.hasKey key) (hi : db.items = items ++ [item])
    (hf : ∀ item ∈ items, item.hasKey key = false) :
    db.vault = update ({ db with items } : SecretDb).vault key (some item.value) := by
  funext other
  unfold vault
  rw [hi, find?_append]
  by_cases hs : other = key
  · subst hs
    have hn : items.find? (SecretItem.hasKey other) = none := by
      rw [find?_eq_none]
      intro item hit hk
      rw [hf item hit] at hk
      cases hk
    rw [update_self, hn]
    simp [hk]
  · rw [update_of_ne hs]
    have ho : item.hasKey other = false := by
      refine Bool.eq_false_iff.mpr ?_
      intro hk'
      exact hs (eq_of_hasKey hk' hk)
    simp [ho]

theorem onePerKey_append {items : List SecretItem} (h : ({ db with items } : SecretDb).OnePerKey)
    (hk : item.hasKey key) (hi : db.items = items ++ [item])
    (hfr : ∀ item ∈ items, item.hasKey key = false) : db.OnePerKey := by
  have hd : ∀ old ∈ items, ∀ other, old.hasKey other → item.hasKey other →
      False := by
    intro old hold other ho hit
    rw [eq_of_hasKey hit hk, hfr old hold] at ho
    cases ho
  intro fst hfi snd hsn other hf hs
  rw [hi, mem_append, mem_singleton] at hfi hsn
  rcases hfi with hfi | rfl <;> rcases hsn with hsn | rfl
  · exact h fst hfi snd hsn other hf hs
  · exact (hd fst hfi other hf hs).elim
  · exact (hd snd hsn other hs hf).elim
  · rfl

end SecretDb

/-! The two closures. -/

theorem run_deleteAll {τ : Type} (ids : List ℕ) (next : Mutation τ) (db : SecretDb) :
    (deleteAll ids next).run db =
      next.run { db with items := db.items.filter fun item => !ids.contains item.id } := by
  induction ids generalizing db with
  | nil => simp [deleteAll]
  | cons id ids ih =>
    have hr : (deleteAll (id :: ids) next).run db = (deleteAll ids next).run (db.delete id).1 := rfl
    rw [hr, ih]
    simp only [SecretDb.delete, filter_filter]
    congr 2
    apply filter_congr
    intro item hi
    by_cases hs : item.id = id <;> simp [hs]

theorem run_deleteMutation (hg : db.Good) (key : String) :
    ((deleteMutation (db.search (keyOnly key))).run db).db = db.without key := by
  rw [deleteMutation, run_deleteAll, hg.filter_searched]
  rfl

/-- What the closure of `Set` leaves: the items without the key, and a new one if it succeeds. -/
theorem run_setMutation (hg : db.Good) (key : String) (new : NewItem) (now : ℕ)
    (hr : new.replace = false) :
    (∃ err, ((setMutation key new now).run db).result = .error err) ∧
        ((setMutation key new now).run db).db.items = (db.without key).items ∨
      ∃ item, item.attributes = new.attributes ∧ item.value = (new.secret, new.contentType) ∧
        ((setMutation key new now).run db).db.items = (db.without key).items ++ [item] := by
  have hru : (setMutation key new now).run db =
      (Mutation.create new now fun created => .done (created.map fun _ => ())).run
        (db.without key) := by
    rw [SecretDb.without, ← hg.filter_searched key, ← run_deleteAll]
    rfl
  rw [hru]
  have hk : (db.without key).kept new = (db.without key).items := by
    simp [SecretDb.kept, SecretDb.replaced, hr]
  rcases (db.without key).create_attributes new now with
    ⟨items, err, hi, heq⟩ | ⟨item, -, ha, hv, heq⟩
  · rw [hk, or_self] at hi
    simp only [Mutation.run, heq, hi]
    exact .inl ⟨⟨err, rfl⟩, trivial⟩
  · refine .inr ⟨item, ha, hv, ?_⟩
    simp only [Mutation.run, heq, hk]

theorem hasKey_without {key : String} (h : item ∈ (db.without key).items) :
    item.hasKey key = false := by
  simpa using (mem_filter.mp h).2

theorem hasKey_brokerItem {key : String} {sec : List UInt8} {l ctype : Option String}
    {attrs : BTreeMap String String}
    (h : item.attributes = (brokerItem key sec l ctype attrs).attributes) :
    item.hasKey key := by
  simp [SecretItem.hasKey, h, brokerItem]

theorem onePerKey_of_items {db db' : SecretDb} (h : db'.items = db.items) (ho : db.OnePerKey) :
    db'.OnePerKey := by
  unfold SecretDb.OnePerKey
  rw [h]
  exact ho

theorem onePerKey_setMutation (hg : db.Good) (ho : db.OnePerKey) (key : String) (sec : List UInt8)
    (l ctype : Option String) (attrs : BTreeMap String String) (now : ℕ) :
    ((setMutation key (brokerItem key sec l ctype attrs) now).run db).db.OnePerKey := by
  have hw := SecretDb.onePerKey_without ho key
  rcases run_setMutation hg key (brokerItem key sec l ctype attrs) now rfl with
    ⟨-, hi⟩ | ⟨item, ha, -, hi⟩
  · exact onePerKey_of_items hi hw
  · exact SecretDb.onePerKey_append hw (hasKey_brokerItem ha) hi
      fun _ => hasKey_without

theorem vault_setMutation (hg : db.Good) (key : String) (sec : List UInt8) (l ctype : Option String)
    (attrs : BTreeMap String String) (now : ℕ) {u : Unit}
    (hok : ((setMutation key (brokerItem key sec l ctype attrs) now).run db).result = .ok u) :
    ((setMutation key (brokerItem key sec l ctype attrs) now).run db).db.vault =
      update db.vault key (some (sec, ctype.getD "text/plain")) := by
  rcases run_setMutation hg key (brokerItem key sec l ctype attrs) now rfl with
    ⟨⟨err, he⟩, -⟩ | ⟨item, ha, hv, hi⟩
  · rw [he] at hok
    cases hok
  · rw [SecretDb.vault_append (hasKey_brokerItem ha) hi fun _ => hasKey_without,
      hv]
    have hva : ({ ((setMutation key (brokerItem key sec l ctype attrs)
        now).run db).db with items := (db.without key).items } : SecretDb).vault =
        (db.without key).vault := rfl
    rw [hva, SecretDb.vault_without, update_idem]
    rfl

end FocalDesk
