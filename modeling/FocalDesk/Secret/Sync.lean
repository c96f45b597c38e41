import FocalDesk.Secret.Confinement

/-! When the item objects on the bus are those of the public items. -/
namespace FocalDesk
open Library Option Bool

variable {τ : Type} {codec : SecretCodec} {base64 : Base64} {acl : AclConfig} {db : SecretDb}
  {id n now : ℕ} {ch : SecretItem → SecretItem} {mutation : Mutation τ} {store : SecretStore}
  {sess : Except SsError Unit} {env : PersistSurroundings} {call : BusCall}
  {ident : String} {request : BrokerRequest} {daemon daemon' : SecretDaemon}
  {event : DaemonEvent} {events : List DaemonEvent}

/-! Only calls that go on with `sync_items` change the public ids. -/

theorem ids_modifyFirst {its : List SecretItem}
    (hid : ∀ item : SecretItem, (ch item).id = item.id)
    (hp : ∀ item ∈ its, item.id = id → item.isPublic)
    (hk : ∀ item : SecretItem, item.isPublic → (ch item).isPublic) :
    ((SecretDb.modifyFirst id ch its).filter SecretItem.isPublic).map SecretItem.id =
      (its.filter SecretItem.isPublic).map SecretItem.id := by
  induction its with
  | nil => rfl
  | cons item its ih =>
    obtain ⟨hi, hit⟩ := List.forall_mem_cons.mp hp
    simp only [SecretDb.modifyFirst]
    split
    · rename_i hs
      simp [hi hs, hk item (hi hs), hid]
    · cases hc : item.isPublic <;> simp [hc, ih hit]

theorem publicIds_modify (hp : db.PublicId id) (hid : ∀ item : SecretItem, (ch item).id = item.id)
    (hk : ∀ item : SecretItem, item.isPublic → (ch item).isPublic) :
    (db.modify id ch).1.publicIds = db.publicIds :=
  congrArg List.toFinset (ids_modifyFirst hid hp.isPublic hk)

/-- A transaction of a method that fails leaves the database, one that does not the mutated one. -/
theorem persistBus_cases (codec : SecretCodec) (store : SecretStore) (env : PersistSurroundings)
    (mutation : Mutation τ) (fail : String → SsError) (ans : τ → BusReply) :
    (persistBus codec store env mutation fail ans).2.isOk = false ∧
        (persistBus codec store env mutation fail ans).1.db = store.db ∨
      (persistBus codec store env mutation fail ans).2.isOk ∧
        (persistBus codec store env mutation fail ans).1.db = (mutation.run store.db).db := by
  unfold persistBus
  rcases transaction_cases codec store mutation env with
    ⟨⟨err, he⟩, hdb, -⟩ | ⟨v, hv, -, hdb, -⟩
  · generalize store.transaction codec mutation env = after at he hdb ⊢
    obtain ⟨after, res⟩ := after
    obtain rfl := he
    exact .inl ⟨rfl, hdb⟩
  · generalize store.transaction codec mutation env = after at hv hdb ⊢
    obtain ⟨after, res⟩ := after
    obtain rfl := hv
    exact .inr ⟨rfl, hdb⟩

theorem publicIds_persistBus {fail : String → SsError} {ans : τ → BusReply}
    (h : (mutation.run store.db).db.publicIds = store.db.publicIds) :
    (persistBus codec store env mutation fail ans).1.db.publicIds = store.db.publicIds := by
  rcases persistBus_cases codec store env mutation fail ans with ⟨-, hdb⟩ | ⟨-, hdb⟩
  · rw [hdb]
  · rw [hdb, h]

theorem db_persistBus {fail : String → SsError} {ans : τ → BusReply}
    (h : (persistBus codec store env mutation fail ans).2.isOk = false) :
    (persistBus codec store env mutation fail ans).1.db = store.db := by
  rcases persistBus_cases codec store env mutation fail ans with ⟨-, hdb⟩ | ⟨hok, -⟩
  · exact hdb
  · rw [hok] at h
    cases h

theorem db_createItem {l ctype itemType : String} {replace : Bool}
    {attrs : BTreeMap String String} {sec : List UInt8}
    (h : (createItem codec store sess now env l attrs sec ctype itemType replace).2.isOk = false) :
    (createItem codec store sess now env l attrs sec ctype itemType replace).1.db = store.db := by
  unfold createItem at h ⊢
  split
  · rfl
  · rename_i hv
    rw [hv] at h
    cases sess with
    | error error => rfl
    | ok u =>
      dsimp only at h ⊢
      split
      · rfl
      · rename_i hl
        rw [if_neg hl] at h
        exact db_persistBus h

theorem publicIds_serveItem (hid : store.db.PublicId id) {m : ItemMethod}
    (h : (BusCall.item id m).syncs = false ∨
      (serveItem codec store sess now env id m).2.isOk = false) :
    (serveItem codec store sess now env id m).1.db.publicIds = store.db.publicIds := by
  cases m with
  | delete =>
    rcases h with h | h
    · cases h
    · simp only [serveItem] at h ⊢
      split
      · rfl
      · rename_i hf
        rw [if_neg hf] at h
        rw [db_persistBus h]
  | getSecret =>
    simp only [serveItem]
    split <;> rfl
  | setSecret sec ctype =>
    simp only [serveItem]
    split
    · rfl
    · split
      · rfl
      · split
        · rfl
        · exact publicIds_persistBus (publicIds_modify hid (fun _ => rfl) fun _ hp => hp)
  | setAttributes attrs =>
    simp only [serveItem]
    split
    · rfl
    · rename_i hv
      have hn := contains_of_validatePublicAttributes hv
      split
      · rfl
      · apply publicIds_persistBus
        refine publicIds_modify hid (fun _ => rfl) ?_
        intro item hp
        simp [SecretItem.isPublic, hn]
  | setLabel l =>
    simp only [serveItem]
    split
    · rfl
    · split
      · rfl
      · exact publicIds_persistBus (publicIds_modify hid (fun _ => rfl) fun _ hp => hp)
  | _ => rfl

theorem publicIds_serve (hi : ∀ id ∈ call.ids, store.db.PublicId id)
    (h : (call.syncs && (serve codec store sess now env call).2.isOk) = false) :
    (serve codec store sess now env call).1.db.publicIds = store.db.publicIds := by
  rw [and_eq_false_iff] at h
  cases call with
  | searchItems attrs => rfl
  | items => rfl
  | createItem l attrs sec ctype itemType replace =>
    rcases h with h | h
    · cases h
    · exact congrArg SecretDb.publicIds (db_createItem h)
  | item id m => exact publicIds_serveItem (hi id (Finset.mem_singleton_self id)) h

theorem db_commitSet {key : String} {sec : List UInt8} {l ctype : Option String}
    {attrs : BTreeMap String String}
    (h : (commitSet codec store key sec l ctype attrs now env).2.isOk = false) :
    (commitSet codec store key sec l ctype attrs now env).1.db = store.db := by
  unfold commitSet at h ⊢
  rcases transaction_cases codec store
      (setMutation key (brokerItem key sec l ctype attrs) now) env with
    ⟨⟨err, he⟩, hdb, -⟩ | ⟨⟨⟩, hv, -, hdb, -⟩
  · generalize store.transaction codec _ env = after at he hdb ⊢
    obtain ⟨after, res⟩ := after
    obtain rfl := he
    exact hdb
  · generalize store.transaction codec _ env = after at hv h
    obtain ⟨after, res⟩ := after
    obtain rfl := hv
    cases h

theorem db_commitDelete {key : String}
    (h : (commitDelete codec store key env).2.isOk = false) :
    (commitDelete codec store key env).1.db = store.db := by
  unfold commitDelete at h ⊢
  dsimp only at h ⊢
  split
  · rfl
  · rename_i hf
    rw [if_neg hf] at h
    rcases transaction_cases codec store (deleteMutation (store.db.search (keyOnly key))) env with
      ⟨⟨err, he⟩, hdb, -⟩ | ⟨⟨⟩, hv, -, hdb, -⟩
    · generalize store.transaction codec _ env = after at he hdb ⊢
      obtain ⟨after, res⟩ := after
      obtain rfl := he
      exact hdb
    · generalize store.transaction codec _ env = after at hv h
      obtain ⟨after, res⟩ := after
      obtain rfl := hv
      cases h

/-- A native request that is refused, or that only reads, leaves the database. -/
theorem db_dispatch
    (h : (request.syncs &&
      (dispatch codec base64 acl store ident request now env).2.isOk) = false) :
    (dispatch codec base64 acl store ident request now env).1.db = store.db := by
  rw [and_eq_false_iff] at h
  cases request with
  | ping => rfl
  | get key =>
    simp only [dispatch]
    repeat' split
    all_goals rfl
  | list keyPrefix =>
    simp only [dispatch]
    split <;> rfl
  | set key valueB64 l attrs ctype =>
    rcases h with h | h
    · cases h
    · simp only [dispatch] at h ⊢
      by_cases hl : exceedsLimits key l ctype attrs
      · rw [if_pos hl]
      · rw [if_neg hl] at h ⊢
        by_cases hd : acl.check ident key true = false
        · rw [if_pos hd]
        · rw [if_neg hd] at h ⊢
          cases hde : base64.decode valueB64 with
          | error error => rfl
          | ok sec =>
            rw [hde] at h
            dsimp only at h ⊢
            by_cases hlo : nativeLimits.secretBytes < sec.length
            · rw [if_pos hlo]
            · rw [if_neg hlo] at h ⊢
              exact db_commitSet h
  | delete key =>
    rcases h with h | h
    · cases h
    · simp only [dispatch] at h ⊢
      by_cases hi : validKey key = false
      · rw [if_pos hi]
      · rw [if_neg hi] at h ⊢
        by_cases hd : acl.check ident key true = false
        · rw [if_pos hd]
        · rw [if_neg hd] at h ⊢
          exact db_commitDelete h

/-! Snapshots. -/

/-- The number of the snapshot that a call holds. -/
def DaemonCall.taken : DaemonCall → Option ℕ
  | .applying taken _ => some taken
  | _ => none

/-- A call that is in `sync_items`. -/
def DaemonCall.isSync : DaemonCall → Bool
  | .syncing => true
  | .applying .. => true
  | _ => false

namespace SecretDaemon

/-- No call in flight holds an older snapshot. -/
def IsOldest (daemon : SecretDaemon) (taken : ℕ) : Prop :=
  ∀ entry ∈ daemon.calls.toList, ∀ other ∈ entry.2.taken, taken ≤ other

instance (daemon : SecretDaemon) (taken : ℕ) : Decidable (daemon.IsOldest taken) :=
  inferInstanceAs (Decidable (∀ entry ∈ daemon.calls.toList, ∀ other ∈ entry.2.taken, taken ≤ other))

/-- Snapshots are applied from the oldest on, and every object can be registered. -/
def AppliesInOrder (daemon : SecretDaemon) : DaemonEvent → Prop
  | .apply n failed =>
    failed = none ∧ ∀ taken ∈ daemon.calls[n]?.bind DaemonCall.taken, daemon.IsOldest taken
  | _ => True

instance (daemon : SecretDaemon) (event : DaemonEvent) : Decidable (daemon.AppliesInOrder event) :=
  match event with
  | .apply n failed => inferInstanceAs (Decidable (failed = none ∧
      ∀ taken ∈ daemon.calls[n]?.bind DaemonCall.taken, daemon.IsOldest taken))
  | .reloadAcl _ => isTrue trivial
  | .busCall .. => isTrue trivial
  | .getSecrets .. => isTrue trivial
  | .request .. => isTrue trivial
  | .serve .. => isTrue trivial
  | .snapshot _ => isTrue trivial
  | .restart .. => isTrue trivial

/-- Either a call has still to take its snapshot, or the newest snapshot that waits is that of the
public ids, or none waits and the public ids are registered. -/
structure Converges (daemon : SecretDaemon) : Prop where
  objects : daemon.objects = daemon.registered
  below : ∀ (m t : ℕ) ids, daemon.calls[m]? = some (.applying t ids) → t < daemon.snapshots
  unique : ∀ (m m' t : ℕ) ids ids', daemon.calls[m]? = some (.applying t ids) →
    daemon.calls[m']? = some (.applying t ids') → m = m'
  current : (∃ m : ℕ, daemon.calls[m]? = some .syncing) ∨
    (∃ m t : ℕ, daemon.calls[m]? = some (.applying t daemon.store.db.publicIds) ∧
      ∀ (m' t' : ℕ) ids, daemon.calls[m']? = some (.applying t' ids) → t' ≤ t) ∨
    (∀ (m t : ℕ) ids, daemon.calls[m]? ≠ some (.applying t ids)) ∧
      daemon.registered = daemon.store.db.publicIds

theorem getElem?_proceed (daemon : SecretDaemon) (n m : ℕ) (goesOn : Option DaemonCall) :
    (daemon.proceed n goesOn)[m]? = if n = m then goesOn else daemon.calls[m]? := by
  cases goesOn with
  | none => simp [proceed, Std.ExtTreeMap.getElem?_erase]
  | some next => simp [proceed, Std.ExtTreeMap.getElem?_insert]

theorem getElem?_proceed_of_ne {m : ℕ} (h : n ≠ m) (goesOn : Option DaemonCall) :
    (daemon.proceed n goesOn)[m]? = daemon.calls[m]? := by
  rw [getElem?_proceed, if_neg h]

/-- A snapshot that waits after a call went on without one was waiting before. -/
theorem waiting_of_proceed {goesOn : Option DaemonCall} {m t : ℕ} {ids : Finset ℕ}
    (hg : ∀ next ∈ goesOn, next.taken = none)
    (h : (daemon.proceed n goesOn)[m]? = some (.applying t ids)) :
    n ≠ m ∧ daemon.calls[m]? = some (.applying t ids) := by
  rw [getElem?_proceed] at h
  split at h
  · have ht := hg _ (mem_def.mpr h)
    cases ht
  · rename_i hne
    exact ⟨hne, h⟩

namespace Converges

theorem opened (acl : AclConfig) (store : SecretStore) (created : List ℕ)
    (records : List NativeRecord) : (opened acl store created records).Converges := by
  have hw : ∀ (m t : ℕ) ids,
      (SecretDaemon.opened acl store created records).calls[m]? ≠ some (.applying t ids) := by
    intro m t ids h
    simp only [SecretDaemon.opened, Std.ExtTreeMap.getElem?_insert] at h
    split at h
    · cases h
    · simp at h
  refine ⟨rfl, fun m t ids h => absurd h (hw m t ids),
    fun m m' t ids ids' h => absurd h (hw m t ids), .inl ⟨0, ?_⟩⟩
  simp [SecretDaemon.opened]

/-- A call that is not in `sync_items` goes on without a snapshot; it enters `sync_items` if it
changed the public ids. -/
theorem proceed (h : daemon.Converges) (hc : ∀ call ∈ daemon.calls[n]?, call.isSync = false)
    {goesOn : Option DaemonCall} (hg : ∀ next ∈ goesOn, next.taken = none)
    {store : SecretStore} (hst : store.db.publicIds = daemon.store.db.publicIds ∨
      goesOn = some .syncing) (created : List ℕ) (records : List NativeRecord) :
    { daemon with store, created, records, calls := daemon.proceed n goesOn }.Converges := by
  have hne : ∀ {m : ℕ} {call : DaemonCall}, daemon.calls[m]? = some call → call.isSync →
      n ≠ m := by
    rintro m call hm hs rfl
    rw [hc call (mem_def.mpr hm)] at hs
    cases hs
  refine ⟨h.objects, ?_, ?_, ?_⟩
  · intro m t ids hm
    exact h.below m t ids (waiting_of_proceed hg hm).2
  · intro m m' t ids ids' hm hm'
    exact h.unique m m' t ids ids' (waiting_of_proceed hg hm).2 (waiting_of_proceed hg hm').2
  · rcases hst with hsa | rfl
    · rcases h.current with ⟨m, hm⟩ | ⟨m, t, hm, hn⟩ | ⟨hno, hr⟩
      · exact .inl ⟨m, (getElem?_proceed_of_ne (hne hm rfl) goesOn).trans hm⟩
      · refine .inr (.inl ⟨m, t, ?_, ?_⟩)
        · rw [hsa]
          exact (getElem?_proceed_of_ne (hne hm rfl) goesOn).trans hm
        · intro m' t' ids hm'
          exact hn m' t' ids (waiting_of_proceed hg hm').2
      · refine .inr (.inr ⟨?_, hr.trans hsa.symm⟩)
        intro m t ids hm
        exact hno m t ids (waiting_of_proceed hg hm).2
    · refine .inl ⟨n, ?_⟩
      rw [getElem?_proceed, if_pos rfl]

theorem begin (h : daemon.Converges) {call : DaemonCall} (hc : call.taken = none)
    (hb : daemon.begin n call = some daemon') : daemon'.Converges := by
  unfold SecretDaemon.begin at hb
  split at hb
  · cases hb
  · rename_i hne
    cases hb
    have hf : ∀ other ∈ daemon.calls[n]?, other.isSync = false := by
      intro other ho
      exact absurd (mem_of_getElem? (mem_def.mp ho)) hne
    have hn : ∀ next ∈ some call, next.taken = none := by
      rintro next ⟨⟩
      exact hc
    exact h.proceed hf hn (.inl rfl) daemon.created daemon.records

theorem serveCall (h : daemon.Converges) (hso : daemon.Sound codec) {call : DaemonCall}
    (hca : daemon.calls[n]? = some call)
    (hs : daemon.serveCall codec base64 n sess now env call = some daemon') :
    daemon'.Converges := by
  have hn (hsn : call.isSync = false) : ∀ other ∈ daemon.calls[n]?, other.isSync = false := by
    intro other ho
    obtain rfl := some.inj (hca.symm.trans (mem_def.mp ho))
    exact hsn
  have hsy (goesOn : Bool) : ∀ next ∈ syncingIf goesOn, next.taken = none := by
    intro next hne
    cases goesOn with
    | false => cases hne
    | true =>
      cases hne
      rfl
  cases call with
  | bus call =>
    cases hs
    refine h.proceed (hn rfl) (hsy _) ?_ _ daemon.records
    cases hg : call.syncs && (serve codec daemon.store sess now env call).2.isOk with
    | false => exact .inl (publicIds_serve (hso.calls n _ hca) hg)
    | true => exact .inr rfl
  | collecting ps found =>
    cases ps with
    | nil =>
      cases hs
      exact h.proceed (hn rfl) (hsy false) (.inl rfl) _ _
    | cons path ps =>
      have hc (found : List (String × SecretValue)) :
          ∀ next ∈ some (DaemonCall.collecting ps found), next.taken = none := by
        rintro next ⟨⟩
        rfl
      simp only [SecretDaemon.serveCall] at hs
      split at hs
      · cases hs
        exact h.proceed (hn rfl) (hc _) (.inl rfl) _ _
      · split at hs
        · cases hs
          exact h.proceed (hn rfl) (hsy false) (.inl rfl) _ _
        · cases hs
          exact h.proceed (hn rfl) (hc _) (.inl rfl) _ _
  | native ident request =>
    cases hs
    refine h.proceed (hn rfl) (hsy _) ?_ daemon.created _
    cases hg : request.syncs &&
        (dispatch codec base64 daemon.acl daemon.store ident request now env).2.isOk with
    | false => exact .inl (congrArg SecretDb.publicIds (db_dispatch hg))
    | true => exact .inr rfl
  | syncing => cases hs
  | applying tk ids => cases hs

/-- A new snapshot is the newest, and that of the public ids. -/
theorem snapshot (h : daemon.Converges) :
    { daemon with
      calls := daemon.proceed n (some (.applying daemon.snapshots daemon.store.db.publicIds))
      snapshots := daemon.snapshots + 1 }.Converges := by
  have hc : ∀ {m t : ℕ} {ids}, (daemon.proceed n
      (some (.applying daemon.snapshots daemon.store.db.publicIds)))[m]? = some (.applying t ids) →
      n = m ∧ t = daemon.snapshots ∨ daemon.calls[m]? = some (.applying t ids) := by
    intro m t ids hm
    rw [getElem?_proceed] at hm
    split at hm
    · rename_i hs
      injection hm with hm
      injection hm with ht
      exact .inl ⟨hs, ht.symm⟩
    · exact .inr hm
  refine ⟨h.objects, ?_, ?_, .inr (.inl ⟨n, daemon.snapshots, ?_, ?_⟩)⟩
  · intro m t ids hm
    rcases hc hm with ⟨-, rfl⟩ | hm
    · exact Nat.lt_succ_self _
    · exact (h.below m t ids hm).trans (Nat.lt_succ_self _)
  · intro m m' t ids ids' hm hm'
    rcases hc hm with ⟨rfl, rfl⟩ | hm <;> rcases hc hm' with ⟨rfl, ht⟩ | hm'
    · rfl
    · exact absurd (h.below m' _ ids' hm') (lt_irrefl _)
    · have hb := h.below m t ids hm
      omega
    · exact h.unique m m' t ids ids' hm hm'
  · rw [getElem?_proceed, if_pos rfl]
  · intro m t ids hm
    rcases hc hm with ⟨-, rfl⟩ | hm
    · exact le_rfl
    · exact (h.below m t ids hm).le

/-- The oldest snapshot is applied: if it is also the newest, it was that of the public ids. -/
theorem applySnapshot (h : daemon.Converges) {tk : ℕ} {ids : Finset ℕ}
    (hc : daemon.calls[n]? = some (.applying tk ids)) (ho : daemon.IsOldest tk) :
    (daemon.applySnapshot n ids none).Converges := by
  have hw : ∀ {m t : ℕ} {ids'}, (daemon.proceed n none)[m]? = some (.applying t ids') →
      n ≠ m ∧ daemon.calls[m]? = some (.applying t ids') :=
    fun hm => waiting_of_proceed (fun next hnx => by cases hnx) hm
  refine ⟨?_, ?_, ?_, ?_⟩
  · ext id
    simp only [SecretDaemon.applySnapshot, h.objects, Finset.mem_sdiff, Finset.mem_union]
    tauto
  · intro m t ids' hm
    exact h.below m t ids' (hw hm).2
  · intro m m' t ids' ids'' hm hm'
    exact h.unique m m' t ids' ids'' (hw hm).2 (hw hm').2
  · rcases h.current with ⟨m, hm⟩ | ⟨m, t, hm, hn⟩ | ⟨hno, -⟩
    · refine .inl ⟨m, (getElem?_proceed_of_ne ?_ none).trans hm⟩
      rintro rfl
      rw [hc] at hm
      cases hm
    · by_cases hs : n = m
      · subst hs
        obtain ⟨rfl, rfl⟩ : tk = t ∧ ids = daemon.store.db.publicIds := by
          rw [hc] at hm
          injection hm with hm
          injection hm with ht hi
          exact ⟨ht, hi⟩
        refine .inr (.inr ⟨?_, rfl⟩)
        intro m' t' ids' hm'
        obtain ⟨hne, hm'⟩ := hw hm'
        have hle := hn m' t' ids' hm'
        have hge : tk ≤ t' := ho (m', .applying t' ids')
          (Std.ExtTreeMap.mem_toList_iff_getElem?_eq_some.mpr hm') t' rfl
        obtain rfl : tk = t' := by omega
        exact hne (h.unique n m' tk _ _ hc hm')
      · refine .inr (.inl ⟨m, t, (getElem?_proceed_of_ne hs none).trans hm, ?_⟩)
        intro m' t' ids' hm'
        exact hn m' t' ids' (hw hm').2
    · exact absurd hc (hno n tk ids)

end Converges

theorem restart_converges {imported : Option (List ImportedItem)}
    (hs : daemon.restart codec imported now env = some daemon') : daemon'.Converges := by
  unfold restart at hs
  split at hs
  · cases hs
  · split at hs
    · cases hs
      exact Converges.opened _ _ _ _
    · dsimp only at hs
      split at hs
      · cases hs
      · cases hs
        exact Converges.opened _ _ _ _

theorem step_converges (hs : daemon.step codec base64 event = some daemon')
    (hok : daemon.AppliesInOrder event) (h : daemon.Sound codec ∧ daemon.Converges) :
    daemon'.Sound codec ∧ daemon'.Converges := by
  refine ⟨step_sound hs h.1, ?_⟩
  obtain ⟨hso, h⟩ := h
  cases event with
  | reloadAcl acl =>
    cases hs
    exact ⟨h.objects, h.below, h.unique, h.current⟩
  | busCall n call =>
    simp only [step] at hs
    split at hs
    · exact h.begin rfl hs
    · cases hs
  | getSecrets n ps => exact h.begin rfl hs
  | request n ident request => exact h.begin rfl hs
  | serve n sess now env =>
    obtain ⟨call, hc, hse⟩ := bind_eq_some_iff.mp hs
    exact h.serveCall hso hc hse
  | snapshot n =>
    simp only [step] at hs
    split at hs
    · cases hs
      exact h.snapshot
    · cases hs
  | apply n failed =>
    simp only [step] at hs
    split at hs
    · rename_i tk ids hc
      cases hs
      obtain ⟨rfl, ho⟩ := hok
      exact h.applySnapshot hc (ho tk (by rw [hc]; rfl))
    · cases hs
  | restart imported now env => exact restart_converges hs

end SecretDaemon

/-- In every run whose snapshots are applied from the oldest on and whose registrations succeed,
the objects on the bus are those of the public items once no call is in `sync_items`. -/
theorem objects_converge (codec : SecretCodec) (base64 : Base64) (acl : AclConfig)
    (hrun : run (SecretDaemon.step codec base64) (SecretDaemon.started acl) events = some daemon)
    (hordered : Meets (SecretDaemon.step codec base64) SecretDaemon.AppliesInOrder
      (SecretDaemon.started acl) events)
    (hfinished : ∀ entry ∈ daemon.calls.toList, entry.2.isSync = false) :
    daemon.objects = daemon.store.db.publicIds := by
  obtain ⟨-, hc⟩ := run_invariant_of_meets SecretDaemon.step_converges hordered hrun
    ⟨SecretDaemon.sound_opened sound_newStore acl [], SecretDaemon.Converges.opened acl newStore [] []⟩
  have hs : ∀ (m : ℕ) call, daemon.calls[m]? = some call → call.isSync = false :=
    fun m call hm => hfinished (m, call) (Std.ExtTreeMap.mem_toList_iff_getElem?_eq_some.mpr hm)
  rw [hc.objects]
  rcases hc.current with ⟨m, hm⟩ | ⟨m, t, hm, -⟩ | ⟨-, hr⟩
  · cases hs m _ hm
  · cases hs m _ hm
  · exact hr

/-! Two notes at a time. -/

def blankNote : SecretItem :=
  { id := 1, label := "note", attributes := ∅, secret := [], contentType := "text/plain",
    itemType := "org.freedesktop.Secret.Generic", created := 100, modified := 100 }

def twoNotes : SecretDb := { nextId := 3, items := [blankNote, { blankNote with id := 2 }] }

/-- The JSON text of a blank note with an id. -/
def blankNoteJson (id : String) : List UInt8 :=
  utf8 "\x7b\"id\":" ++ utf8 id ++ utf8 ",\"label\":\"note\",\"attributes\":\x7b\x7d," ++
    utf8 "\"secret\":\"\",\"content_type\":\"text/plain\"," ++
    utf8 "\"item_type\":\"org.freedesktop.Secret.Generic\"," ++
    utf8 "\"created\":100,\"modified\":100\x7d"

def oneNoteJson : List UInt8 :=
  utf8 "\x7b\"next_id\":2,\"items\":[" ++ blankNoteJson "1" ++ utf8 "]\x7d"

def twoNotesJson : List UInt8 :=
  utf8 "\x7b\"next_id\":3,\"items\":[" ++ blankNoteJson "1" ++ utf8 "," ++ blankNoteJson "2" ++
    utf8 "]\x7d"

/-- A serializer of one and of two notes, with the cipher of `noteCodec`. -/
def twoNotesCodec : SecretCodec where
  encrypt := noteCodec.encrypt
  decrypt := noteCodec.decrypt
  decrypt_encrypt := noteCodec.decrypt_encrypt
  length_encrypt := noteCodec.length_encrypt
  serialize db :=
    if db = noteDb then .ok oneNoteJson
    else if db = twoNotes then .ok twoNotesJson
    else .error "not the notes"
  deserialize plain := .ok (if plain = oneNoteJson then noteDb else twoNotes)
  deserialize_serialize db plain h := by
    have hne : twoNotesJson ≠ oneNoteJson := by decide +kernel
    split at h
    case isTrue heq =>
      obtain rfl := Except.ok.inj h
      rw [if_pos rfl, heq]
    case isFalse =>
      split at h
      case isTrue heq =>
        obtain rfl := Except.ok.inj h
        rw [if_neg hne, heq]
      case isFalse => cases h

def createBlank (n : ℕ) : List DaemonEvent :=
  [.busCall n (.createItem "note" ∅ [] "text/plain" "org.freedesktop.Secret.Generic" false),
    .serve n (.ok ()) 100 nothingFails, .snapshot n]

/-- Two notes are created, and the snapshots are applied as they were taken. -/
def orderedEvents : List DaemonEvent :=
  [.snapshot 0, .apply 0 none] ++ createBlank 1 ++ createBlank 2 ++ [.apply 1 none, .apply 2 none]

theorem objects_converge_sample : ∃ daemon,
    run (SecretDaemon.step twoNotesCodec sampleBase64) (SecretDaemon.started .default)
        orderedEvents = some daemon ∧
      daemon.objects = daemon.store.db.publicIds := by
  obtain ⟨ho, daemon, hr, hf⟩ :
      Meets (SecretDaemon.step twoNotesCodec sampleBase64) SecretDaemon.AppliesInOrder
          (SecretDaemon.started .default) orderedEvents ∧
        ∃ daemon, run (SecretDaemon.step twoNotesCodec sampleBase64)
            (SecretDaemon.started .default) orderedEvents = some daemon ∧
          (daemon.calls.toList.all fun e => !e.2.isSync) = true :=
    exists_run_of_checked (by decide +kernel)
  refine ⟨daemon, hr, objects_converge twoNotesCodec sampleBase64 .default hr ho ?_⟩
  intro e he
  simpa using List.all_eq_true.mp hf e he

/-- The snapshot of the first note is applied after that of both. -/
def overtakenEvents : List DaemonEvent :=
  [.snapshot 0, .apply 0 none] ++ createBlank 1 ++ createBlank 2 ++ [.apply 2 none, .apply 1 none]

/-- All calls have finished, and the second note has no object. -/
theorem overtaken_snapshot_applied :
    ¬ ∀ (codec : SecretCodec) (base64 : Base64) (acl : AclConfig) (events : List DaemonEvent)
      (daemon : SecretDaemon),
      run (SecretDaemon.step codec base64) (SecretDaemon.started acl) events = some daemon →
      (∀ entry ∈ daemon.calls.toList, entry.2.isSync = false) →
      daemon.objects = daemon.store.db.publicIds := by
  intro h
  obtain ⟨daemon, hr, hf⟩ : ∃ daemon,
      run (SecretDaemon.step twoNotesCodec sampleBase64) (SecretDaemon.started .default)
          overtakenEvents = some daemon ∧
        (daemon.calls.toList.isEmpty && decide (2 ∈ daemon.store.db.publicIds) &&
          decide (2 ∉ daemon.objects)) = true := exists_run_of_any (by decide +kernel)
  simp only [and_eq_true, List.isEmpty_iff, decide_eq_true_eq] at hf
  obtain ⟨⟨hc, hp⟩, ho⟩ := hf
  refine ho ?_
  rw [h twoNotesCodec sampleBase64 .default overtakenEvents daemon hr ?_]
  · exact hp
  · rw [hc]
    intro entry he
    cases he

end FocalDesk
