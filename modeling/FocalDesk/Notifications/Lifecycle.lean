import FocalDesk.Library.Transition
import FocalDesk.Notifications.Manager
import Mathlib.Data.List.Nodup
import Mathlib.Data.List.Perm.Subperm
import Mathlib.Data.Nat.ModEq

/-! Every notification is closed once, over whole sessions. -/
namespace FocalDesk.Notifications
open Library List

variable {tk : List ℕ} {manager : NotificationManager} {now : ℤ} {id : ℕ}

/-! The ids that are tried. -/

/-- The candidates of so many tries. -/
def candidates : ℕ → ℕ → List ℕ
  | 0, _ => []
  | tries + 1, nextId => candidateId nextId :: candidates tries (followingId (candidateId nextId))

theorem candidateId_range (nextId : ℕ) :
    1 ≤ candidateId nextId ∧ candidateId nextId ≤ u32Max := by
  unfold candidateId u32Max
  omega

theorem candidates_eq (tries nextId : ℕ) : candidates tries nextId =
    (List.range tries).map fun k => (candidateId nextId - 1 + k) % u32Max + 1 := by
  induction tries generalizing nextId with
  | zero => rfl
  | succ tries ih =>
    have hr := candidateId_range nextId
    rw [candidates, ih, range_succ_eq_map, map_cons, map_map]
    congr 1
    · unfold u32Max at hr ⊢
      omega
    · apply map_congr_left
      intro k _
      generalize candidateId nextId = candidate at hr ⊢
      simp only [Function.comp, followingId, candidateId]
      unfold u32Max at hr ⊢
      split <;> omega

theorem nodup_candidates {tries : ℕ} (h : tries ≤ u32Max) (nextId : ℕ) :
    (candidates tries nextId).Nodup := by
  rw [candidates_eq]
  refine List.Nodup.map_on ?_ nodup_range
  intro k hk l hl heq
  have hkl : k ≡ l [MOD u32Max] := Nat.ModEq.add_left_cancel' _ (Nat.succ.inj heq)
  exact hkl.eq_of_lt_of_lt (Nat.lt_of_lt_of_le (mem_range.mp hk) h)
    (Nat.lt_of_lt_of_le (mem_range.mp hl) h)

/-- The id that is found is a candidate that is not taken, unless all candidates are taken. -/
theorem findId_cases (tk : List ℕ) (tries nextId : ℕ) :
    ((findId tk tries nextId).2 ∉ tk ∧
      1 ≤ (findId tk tries nextId).2 ∧ (findId tk tries nextId).2 ≤ u32Max) ∨
      ((findId tk tries nextId).2 = 1 ∧ candidates tries nextId ⊆ tk) := by
  induction tries generalizing nextId with
  | zero => exact .inr ⟨rfl, nil_subset _⟩
  | succ tries ih =>
    unfold findId
    by_cases ht : tk.contains (candidateId nextId)
    · rw [if_pos ht]
      refine (ih _).imp_right fun h => ⟨h.1, ?_⟩
      exact cons_subset.mpr ⟨contains_iff_mem.mp ht, h.2⟩
    · rw [if_neg ht]
      exact .inl ⟨fun h => ht (contains_iff_mem.mpr h), candidateId_range nextId⟩

theorem findId_fresh (h : tk.length < u32Max) (nextId : ℕ) :
    (findId tk u32Max nextId).2 ∉ tk ∧
      1 ≤ (findId tk u32Max nextId).2 ∧ (findId tk u32Max nextId).2 ≤ u32Max := by
  refine (findId_cases tk u32Max nextId).resolve_right ?_
  rintro ⟨-, hs⟩
  have hle := ((nodup_candidates (Nat.le_refl _) nextId).subperm hs).length_le
  rw [candidates_eq, length_map, length_range] at hle
  omega

/-! What one operation does. -/

/-- The event closes a notification with this id. -/
def closes (id : ℕ) : NotificationEvent → Bool
  | .closed closedId _ => closedId = id
  | .actionInvoked _ _ => false

namespace NotificationManager

def activeIds (manager : NotificationManager) : List ℕ := manager.queue.map Notification.id

def historicalIds (manager : NotificationManager) : List ℕ := manager.history.map Notification.id

theorem ids_eq (manager : NotificationManager) :
    manager.ids = manager.activeIds ++ manager.historicalIds := map_append

structure WellFormed (manager : NotificationManager) : Prop where
  distinct : manager.ids.Nodup
  range : ∀ id ∈ manager.ids, id ≤ u32Max
  limit : manager.history.length ≤ manager.historyLimit
  bound : manager.historyLimit ≤ maxHistoryNotifications

/-- A notification in the queue has the action. -/
def Offers (manager : NotificationManager) (id : ℕ) (actionKey : String) : Prop :=
  ∃ notification ∈ manager.queue, notification.id = id ∧
    ∃ action ∈ notification.actions, action.key = actionKey

end NotificationManager

open NotificationManager

/-- What an operation allocates and emits is what enters and leaves the queue. -/
structure Effect (before after : NotificationManager) (allocated : List ℕ)
    (fresh : List NotificationEvent) : Prop where
  wellFormed : after.WellFormed
  events : after.events = before.events ++ fresh
  count : ∀ id, allocated.count id + before.activeIds.count id =
    fresh.countP (closes id) + after.activeIds.count id
  invoked : ∀ id actionKey, .actionInvoked id actionKey ∈ fresh → before.Offers id actionKey

theorem WellFormed.of_subperm {after : NotificationManager} (h : manager.WellFormed)
    (hi : after.ids.Subperm manager.ids) (hl : after.history.length ≤ after.historyLimit)
    (hb : after.historyLimit ≤ maxHistoryNotifications) : after.WellFormed where
  distinct := by
    obtain ⟨ids, hp, hs⟩ := hi
    exact hp.nodup_iff.mp (h.distinct.sublist hs)
  range id hid := h.range id (hi.subset hid)
  limit := hl
  bound := hb

theorem map_id_eraseP (id : ℕ) (notifications : List Notification) :
    (notifications.eraseP fun note => note.id = id).map Notification.id =
      (notifications.map Notification.id).erase id := by
  rw [erase_eq_eraseP, eraseP_map]
  congr 1
  apply congrArg (fun p => notifications.eraseP p)
  funext note
  rw [Function.comp_apply, Bool.eq_iff_iff, beq_iff_eq, decide_eq_true_iff, eq_comm]

theorem mem_activeIds_of_find {note : Notification}
    (h : (manager.queue.find? fun note => note.id = id) = some note) :
    id ∈ manager.activeIds := by
  have hid := find?_some h
  exact mem_map.mpr ⟨note, mem_of_find?_eq_some h, of_decide_eq_true hid⟩

theorem length_trimHistory_le (lim : ℕ) (history : List Notification) :
    (trimHistory lim history).length ≤ lim := by
  rw [trimHistory, length_drop]
  omega

theorem trimHistory_sublist (lim : ℕ) (history : List Notification) :
    (trimHistory lim history).Sublist history := drop_sublist _ _

/-- The events that close notifications count their ids. -/
theorem countP_closedEvent (rsn id : ℕ) (notifications : List Notification)
    (hr : ∀ note ∈ notifications, note.id ≤ u32Max) :
    (notifications.map (closedEvent · rsn)).countP (closes id) =
      (notifications.map Notification.id).count id := by
  induction notifications with
  | nil => rfl
  | cons note notifications ih =>
    obtain ⟨hle, hre⟩ := forall_mem_cons.mp hr
    simp only [map_cons, countP_cons, count_cons, ih hre]
    simp [closedEvent, closes, Nat.min_eq_left hle]

theorem forall_queue_range (h : manager.WellFormed) :
    ∀ note ∈ manager.queue, note.id ≤ u32Max := by
  intro note hm
  apply h.range
  rw [ids_eq]
  exact mem_append_left _ (mem_map_of_mem hm)

/-- Nothing enters or leaves the queue. -/
theorem Effect.of_same {after : NotificationManager} (ha : after.WellFormed)
    (he : after.events = manager.events) (hac : after.activeIds = manager.activeIds) :
    Effect manager after [] [] where
  wellFormed := ha
  events := by rw [he, append_nil]
  count id := by rw [hac]; rfl
  invoked _ _ h := nomatch h

theorem close_active (h : manager.WellFormed) (rsn : ℕ) {note : Notification}
    (hf : (manager.queue.find? fun note => note.id = id) = some note) :
    Effect manager (manager.close id rsn).1 [] [.closed id rsn] := by
  have hid := mem_activeIds_of_find hf
  have hr : id ≤ u32Max := h.range id (by rw [ids_eq]; exact mem_append_left _ hid)
  have hcl : (manager.close id rsn).1 = { manager with
      queue := manager.queue.eraseP fun note => note.id = id
      events := manager.events ++ [.closed id rsn] } := by
    simp only [close, takeActiveNotification, hf, Nat.min_eq_left hr]
  rw [hcl]
  constructor
  · refine WellFormed.of_subperm h (List.Sublist.subperm ?_) h.limit h.bound
    exact (eraseP_sublist.append_right _).map _
  · rfl
  · intro other
    have hc : manager.activeIds.count other =
        (if id = other then 1 else 0) + (manager.activeIds.erase id).count other := by
      by_cases heq : id = other
      · subst heq
        rw [if_pos rfl, count_erase_self]
        have hp := count_pos_iff.mpr hid
        omega
      · rw [if_neg heq, count_erase_of_ne (Ne.symm heq), Nat.zero_add]
    simp only [activeIds] at hc
    simp [activeIds, map_id_eraseP, closes, hc, countP_cons]
  · intro _ _ hm
    cases mem_singleton.mp hm

theorem close_other (h : manager.WellFormed) (rsn : ℕ)
    (hf : (manager.queue.find? fun note => note.id = id) = none) :
    Effect manager (manager.close id rsn).1 [] [] := by
  have hq : (manager.queue.eraseP fun note => note.id = id) = manager.queue :=
    eraseP_of_forall_not (find?_eq_none.mp hf)
  have hc : (manager.close id rsn).1 = { manager with
      history := manager.history.eraseP fun note => note.id = id } := by
    simp only [close, takeActiveNotification, takeHistoricalNotification, hf, hq]
  rw [hc]
  refine Effect.of_same ?_ rfl rfl
  refine WellFormed.of_subperm h (List.Sublist.subperm ?_) ?_ h.bound
  · exact (eraseP_sublist.append_left _).map _
  · exact Nat.le_trans eraseP_sublist.length_le h.limit

theorem close_effect (h : manager.WellFormed) (id rsn : ℕ) :
    ∃ fresh, Effect manager (manager.close id rsn).1 [] fresh := by
  cases hf : manager.queue.find? fun note => note.id = id with
  | none => exact ⟨_, close_other h rsn hf⟩
  | some note => exact ⟨_, close_active h rsn hf⟩

theorem invokeAction_effect (h : manager.WellFormed) (id : ℕ) (actionKey : String) :
    ∃ fresh, Effect manager (manager.invokeAction id actionKey).1 [] fresh := by
  cases hf : manager.queue.find? fun note => note.id = id with
  | none =>
    have hs : (manager.invokeAction id actionKey).1 = manager := by
      simp only [invokeAction, hf]
    rw [hs]
    exact ⟨[], .of_same h rfl rfl⟩
  | some note =>
    cases ha : note.actions.find? fun act => act.key = actionKey with
    | none =>
      have hs : (manager.invokeAction id actionKey).1 = manager := by
        simp only [invokeAction, hf, ha]
      rw [hs]
      exact ⟨[], .of_same h rfl rfl⟩
    | some act =>
      have hid := mem_activeIds_of_find hf
      have hr : id ≤ u32Max := h.range id (by rw [ids_eq]; exact mem_append_left _ hid)
      have hs := find?_some hf
      have ho : manager.Offers id act.key :=
        ⟨note, mem_of_find?_eq_some hf, of_decide_eq_true hs, act, mem_of_find?_eq_some ha, rfl⟩
      -- The event of the action comes before that of the close.
      let invoked : NotificationManager :=
        { manager with events := manager.events ++ [.actionInvoked id act.key] }
      have hi : Effect manager invoked [] [.actionInvoked id act.key] := by
        refine ⟨⟨h.distinct, h.range, h.limit, h.bound⟩, rfl, ?_, ?_⟩
        · intro other
          simp [closes, activeIds, invoked]
        · intro other key hm
          cases mem_singleton.mp hm
          exact ho
      have hv : (manager.invokeAction id actionKey).1 =
          if note.resident then invoked else (invoked.close id 2).1 := by
        simp only [invokeAction, hf, ha, Nat.min_eq_left hr, invoked]
      rw [hv]
      split
      · exact ⟨_, hi⟩
      · have hc : Effect invoked (invoked.close id 2).1 [] [.closed id 2] :=
          close_active hi.wellFormed 2 hf
        refine ⟨[.actionInvoked id act.key, .closed id 2], hc.wellFormed, ?_, ?_, ?_⟩
        · rw [hc.events, hi.events, append_assoc]
          rfl
        · intro other
          have hfi := hi.count other
          have hsn := hc.count other
          simp only [countP_cons, countP_nil, count_nil] at hfi hsn ⊢
          omega
        · intro other key hm
          rcases mem_cons.mp hm with heq | hm
          · cases heq
            exact ho
          · cases mem_singleton.mp hm

theorem expire_effect (h : manager.WellFormed) (now : ℤ) :
    ∃ fresh, Effect manager (manager.expire now).1 [] fresh := by
  let expired := manager.queue.filter fun note => note.isExpired now
  let queue := manager.queue.filter fun note => !note.isExpired now
  let kept := (expired.filter fun note => !note.transient).map
    fun note => { note with actions := [] }
  have hq : (expired ++ queue).Perm manager.queue := filter_append_perm _ _
  have hk : (kept.map Notification.id).Sublist (expired.map Notification.id) := by
    simp only [kept, map_map]
    exact filter_sublist.map _
  refine ⟨expired.map (closedEvent · 1), ?_, rfl, ?_, ?_⟩
  · refine WellFormed.of_subperm h ?_ (length_trimHistory_le _ _) h.bound
    -- The ids that expired move from the queue to the history.
    have ha : (manager.expire now).1.ids.Sublist
        (queue.map Notification.id ++ (manager.historicalIds ++ expired.map Notification.id)) := by
      rw [ids_eq]
      refine List.Sublist.append (List.Sublist.refl _) ?_
      refine ((trimHistory_sublist _ _).map _).trans ?_
      rw [map_append]
      exact List.Sublist.append_left hk _
    have hp : (queue.map Notification.id ++
        (manager.historicalIds ++ expired.map Notification.id)).Perm manager.ids := by
      have hac : (expired.map Notification.id ++ queue.map Notification.id).Perm
          manager.activeIds := by
        rw [← map_append]
        exact hq.map _
      rw [ids_eq, ← append_assoc]
      refine perm_append_comm.trans ?_
      rw [← append_assoc]
      exact hac.append_right _
    exact ha.subperm.trans hp.subperm
  · intro id
    have hr : ∀ note ∈ expired, note.id ≤ u32Max := fun note hm =>
      forall_queue_range h note (mem_of_mem_filter hm)
    rw [countP_closedEvent 1 id expired hr, count_nil, Nat.zero_add]
    have hc := (hq.map Notification.id).count_eq id
    rw [map_append, count_append] at hc
    exact hc.symm
  · intro id actionKey hm
    obtain ⟨_, -, heq⟩ := mem_map.mp hm
    cases heq

theorem clearHistory_effect (h : manager.WellFormed) :
    Effect manager manager.clearHistory [] (manager.queue.map (closedEvent · 2)) where
  wellFormed := WellFormed.of_subperm h nil_subperm (Nat.zero_le _) h.bound
  events := rfl
  count id := by
    rw [countP_closedEvent 2 id _ (forall_queue_range h), count_nil, Nat.zero_add]
    rfl
  invoked id actionKey hmem := by
    obtain ⟨_, -, heq⟩ := mem_map.mp hmem
    cases heq

theorem markAllRead_effect (h : manager.WellFormed) :
    Effect manager manager.markAllRead [] [] := by
  have ha : manager.markAllRead.activeIds = manager.activeIds := map_map
  have hh : manager.markAllRead.historicalIds = manager.historicalIds := map_map
  have hi : manager.markAllRead.ids = manager.ids := by
    rw [ids_eq, ids_eq, ha, hh]
  refine Effect.of_same (WellFormed.of_subperm h ?_ ?_ h.bound) rfl ha
  · rw [hi]
  · exact (length_map _).trans_le h.limit

theorem setHistoryLimit_effect (h : manager.WellFormed) (lim : ℕ) :
    Effect manager (manager.setHistoryLimit lim) [] [] := by
  refine Effect.of_same (WellFormed.of_subperm h ?_ (length_trimHistory_le _ _) ?_) rfl rfl
  · exact ((trimHistory_sublist _ _).append_left _).map _ |>.subperm
  · unfold setHistoryLimit maxHistoryNotifications
    dsimp only
    omega

/-- The push allocates an id. -/
def allocates (manager : NotificationManager) (replacesId : ℕ) : Bool :=
  !(replacesId ≠ 0 && manager.activeIds.contains replacesId)

section
variable (now : ℤ) {replacesId : ℕ} (ttl body : String) (tout : Option ℕ)
  (details : NotificationDetails)

theorem pushStandard_allocated (hn : allocates manager replacesId) :
    ∃ note, note.id = (findId manager.ids u32Max manager.nextId).2 ∧
      manager.pushStandard now replacesId ttl body tout details =
        ({ manager with
            nextId := (findId manager.ids u32Max manager.nextId).1
            queue := manager.queue ++ [note] }, note.id) := by
  by_cases hz : replacesId = 0
  · subst hz
    exact ⟨_, rfl, rfl⟩
  · have hf : (manager.queue.find? fun note => note.id = replacesId) = none := by
      rw [find?_eq_none]
      intro note hm hid
      have hno : replacesId ∉ manager.activeIds := by
        simpa [allocates, hz] using hn
      exact hno (mem_map.mpr ⟨note, hm, of_decide_eq_true hid⟩)
    have hq : (manager.queue.eraseP fun note => note.id = replacesId) =
        manager.queue := eraseP_of_forall_not (find?_eq_none.mp hf)
    unfold pushStandard takeActiveNotification
    rw [if_pos hz, hf, hq]
    exact ⟨_, rfl, rfl⟩

theorem pushStandard_replaced (hold : allocates manager replacesId = false) :
    replacesId ∈ manager.activeIds ∧ ∃ note, note.id = replacesId ∧
      manager.pushStandard now replacesId ttl body tout details =
        ({ manager with queue := (manager.queue.eraseP fun note =>
            note.id = replacesId) ++ [note] }, replacesId) := by
  have hr : replacesId ≠ 0 ∧ replacesId ∈ manager.activeIds := by
    simpa [allocates] using hold
  obtain ⟨hz, hm⟩ := hr
  refine ⟨hm, ?_⟩
  cases hf : manager.queue.find? fun note => note.id = replacesId with
  | none =>
    obtain ⟨note, hn, hid⟩ := mem_map.mp hm
    exact absurd (decide_eq_true hid) (find?_eq_none.mp hf note hn)
  | some old =>
    have hid := find?_some hf
    obtain rfl : old.id = replacesId := of_decide_eq_true hid
    unfold pushStandard takeActiveNotification
    rw [if_pos hz, hf]
    refine ⟨_, ?_, rfl⟩
    rfl

theorem pushStandard_effect (h : manager.WellFormed)
    (hro : allocates manager replacesId → manager.ids.length < u32Max) :
    Effect manager (manager.pushStandard now replacesId ttl body tout details).1
      (if allocates manager replacesId then
        [(manager.pushStandard now replacesId ttl body tout details).2] else []) [] := by
  cases ha : allocates manager replacesId with
  | true =>
    obtain ⟨note, hid, hp⟩ := pushStandard_allocated now ttl body tout details ha
    obtain ⟨hf, -, hr⟩ := findId_fresh (hro ha) manager.nextId
    rw [← hid] at hf hr
    rw [hp, if_pos rfl]
    have hi : (note.id :: manager.ids).Perm
        (NotificationManager.ids
          { manager with
            nextId := (findId manager.ids u32Max manager.nextId).1
            queue := manager.queue ++ [note] }) := by
      rw [ids_eq, ids_eq]
      simp only [activeIds, historicalIds, map_append, map_cons, map_nil, append_assoc]
      exact perm_middle.symm
    refine ⟨⟨?_, ?_, h.limit, h.bound⟩, (append_nil _).symm, ?_, nofun⟩
    · exact hi.nodup_iff.mp (nodup_cons.mpr ⟨hf, h.distinct⟩)
    · intro id hm
      rcases mem_cons.mp (hi.mem_iff.mpr hm) with heq | hm
      · exact heq ▸ hr
      · exact h.range id hm
    · intro id
      simp only [activeIds, map_append, count_append, map_cons, map_nil, countP_nil]
      omega
  | false =>
    obtain ⟨hm, note, hid, hp⟩ := pushStandard_replaced now ttl body tout details ha
    rw [hp, if_neg Bool.false_ne_true]
    have hac : (NotificationManager.activeIds { manager with
        queue := (manager.queue.eraseP fun note => note.id = replacesId) ++
          [note] }).Perm manager.activeIds := by
      simp only [activeIds, map_append, map_id_eraseP, map_cons, map_nil, hid]
      exact perm_append_singleton _ _ |>.trans (perm_cons_erase hm).symm
    refine ⟨WellFormed.of_subperm h ?_ h.limit h.bound, (append_nil _).symm, ?_, nofun⟩
    · rw [ids_eq, ids_eq]
      exact (hac.append_right _).subperm
    · intro id
      rw [count_nil, countP_nil, hac.count_eq]

theorem pushStandard_events (manager : NotificationManager) (replacesId : ℕ) :
    (manager.pushStandard now replacesId ttl body tout details).1.events = manager.events := by
  cases ha : allocates manager replacesId with
  | true =>
    obtain ⟨_, _, hp⟩ := pushStandard_allocated now ttl body tout details ha
    rw [hp]
  | false =>
    obtain ⟨_, _, _, hp⟩ := pushStandard_replaced now ttl body tout details ha
    rw [hp]

end

/-! Files. -/

structure SoundFile (entries : List PersistedNotification) : Prop where
  distinct : (entries.map PersistedNotification.id).Nodup
  range : ∀ entry ∈ entries, entry.id ≤ u32Max
  length : entries.length ≤ maxHistoryNotifications

theorem soundFile_saveHistory (h : manager.WellFormed) (now : ℤ) :
    SoundFile (manager.saveHistory now) := by
  have hi : ((manager.saveHistory now).map PersistedNotification.id).Sublist manager.ids := by
    rw [ids_eq, saveHistory, map_map]
    exact (filter_sublist.map _).trans (sublist_append_right _ _)
  refine ⟨h.distinct.sublist hi, ?_, ?_⟩
  · intro e he
    exact h.range _ (hi.subset (mem_map_of_mem he))
  · rw [saveHistory, length_map]
    exact (length_filter_le _ _).trans (h.limit.trans h.bound)

theorem foldl_loadEntry (now : ℤ) (ents : List PersistedNotification)
    (manager : NotificationManager) : ∃ nextId, ents.foldl (NotificationManager.loadEntry now) manager =
      { manager with nextId, history := manager.history ++ ents.map (restored now) } := by
  induction ents generalizing manager with
  | nil => exact ⟨manager.nextId, by simp⟩
  | cons e ents ih =>
    obtain ⟨nextId, hf⟩ := ih (NotificationManager.loadEntry now manager e)
    refine ⟨nextId, ?_⟩
    rw [foldl_cons, hf]
    simp [NotificationManager.loadEntry]

theorem wellFormed_new : NotificationManager.new.WellFormed :=
  ⟨nodup_nil, nofun, Nat.zero_le _, Nat.le_refl _⟩

/-- What a new manager has loaded. -/
theorem loadHistory_new (now : ℤ) {file : Option (List PersistedNotification)}
    (hf : ∀ ents, file = some ents → SoundFile ents) :
    (NotificationManager.new.loadHistory now file).WellFormed ∧
      (NotificationManager.new.loadHistory now file).queue = [] ∧
        (NotificationManager.new.loadHistory now file).events = [] := by
  rcases file with _ | ents
  · exact ⟨wellFormed_new, rfl, rfl⟩
  · obtain ⟨hd, hr, hl⟩ := hf ents rfl
    obtain ⟨nextId, hfo⟩ := foldl_loadEntry now ents .new
    have hlo : NotificationManager.new.loadHistory now (some ents) =
        { NotificationManager.new with nextId, history := ents.map (restored now) } := by
      have hdr : ents.length - maxHistoryNotifications = 0 := Nat.sub_eq_zero_of_le hl
      simp only [loadHistory, hdr, drop_zero]
      exact hfo
    rw [hlo]
    have hi : NotificationManager.ids { NotificationManager.new with
        nextId, history := ents.map (restored now) } = ents.map PersistedNotification.id := map_map
    refine ⟨⟨?_, ?_, ?_, Nat.le_refl _⟩, rfl, rfl⟩
    · rw [hi]
      exact hd
    · intro id hid
      rw [hi] at hid
      obtain ⟨e, he, rfl⟩ := mem_map.mp hid
      exact hr e he
    · exact (length_map _).trans_le hl

/-! Sessions. -/

/-- A manager with its file, the ids it allocated and the events that were drained. -/
structure Session where
  manager : NotificationManager
  file : Option (List PersistedNotification)
  allocated : List ℕ
  drained : List NotificationEvent

inductive SessionEvent where
  | pushStandard (now : ℤ) (replacesId : ℕ) (title body : String) (timeout : Option ℕ)
    (details : NotificationDetails)
  | dismiss (id : ℕ)
  | closeRequested (id : ℕ)
  | invokeAction (id : ℕ) (actionKey : String)
  | expire (now : ℤ)
  | clearHistory
  | markAllRead
  | setDoNotDisturb (enabled : Bool)
  | setHistoryLimit (limit : ℕ)
  | drainEvents
  | saveHistory (now : ℤ)
  | restart (now : ℤ)

namespace Session

def start : Session := ⟨.new, none, [], []⟩

/-- All that was emitted, drained or not. -/
def emitted (session : Session) : List NotificationEvent :=
  session.drained ++ session.manager.events

/-- The manager after an operation. -/
def after (session : Session) (manager : NotificationManager) : Session :=
  { session with manager }

def step (session : Session) : SessionEvent → Option Session
  | .pushStandard now replacesId title body timeout details =>
    let pushed := session.manager.pushStandard now replacesId title body timeout details
    some { session with
      manager := pushed.1
      allocated := session.allocated ++
        if allocates session.manager replacesId then [pushed.2] else [] }
  | .dismiss id => some (session.after (session.manager.dismiss id).1)
  | .closeRequested id => some (session.after (session.manager.closeRequested id).1)
  | .invokeAction id actionKey => some (session.after (session.manager.invokeAction id actionKey).1)
  | .expire now => some (session.after (session.manager.expire now).1)
  | .clearHistory => some (session.after session.manager.clearHistory)
  | .markAllRead => some (session.after session.manager.markAllRead)
  | .setDoNotDisturb enabled => some (session.after (session.manager.setDoNotDisturb enabled))
  | .setHistoryLimit limit => some (session.after (session.manager.setHistoryLimit limit))
  | .drainEvents => some { session with
      manager := session.manager.drainEvents.1
      drained := session.drained ++ session.manager.drainEvents.2 }
  | .saveHistory now => some { session with file := some (session.manager.saveHistory now) }
  | .restart now => some
      { manager := NotificationManager.new.loadHistory now session.file
        file := session.file
        allocated := []
        drained := [] }

/-- An id is left for what is pushed. -/
def hasFreeId (session : Session) : SessionEvent → Bool
  | .pushStandard _ replacesId _ _ _ _ =>
    !allocates session.manager replacesId || session.manager.ids.length < u32Max
  | _ => true

/-- Each id was closed as often as it was allocated, except for those in the queue. -/
structure Exact (session : Session) : Prop where
  distinct : session.manager.ids.Nodup
  closed : ∀ id, session.allocated.count id =
    session.emitted.countP (closes id) + session.manager.activeIds.count id
  limit : session.manager.history.length ≤ session.manager.historyLimit

structure Sound (session : Session) : Prop where
  wellFormed : session.manager.WellFormed
  closed : ∀ id, session.allocated.count id =
    session.emitted.countP (closes id) + session.manager.activeIds.count id
  file : ∀ entries, session.file = some entries → SoundFile entries

variable {sess next : Session} {ev : SessionEvent}

theorem Sound.exact (h : sess.Sound) : sess.Exact :=
  ⟨h.wellFormed.distinct, h.closed, h.wellFormed.limit⟩

theorem Sound.effect (h : sess.Sound) {manager : NotificationManager} {allocated : List ℕ}
    {fresh : List NotificationEvent} (he : Effect sess.manager manager allocated fresh) :
    Sound { sess with manager, allocated := sess.allocated ++ allocated } where
  wellFormed := he.wellFormed
  closed id := by
    have hp := h.closed id
    have hc := he.count id
    simp only [emitted, he.events, count_append, countP_append] at hp ⊢
    omega
  file := h.file

theorem Sound.after (h : sess.Sound) {manager : NotificationManager}
    (he : ∃ fresh, Effect sess.manager manager [] fresh) :
    (sess.after manager).Sound := by
  obtain ⟨fresh, he⟩ := he
  have hs := h.effect he
  rwa [append_nil] at hs

theorem Sound.drainEvents (h : sess.Sound) : Sound { sess with
    manager := sess.manager.drainEvents.1
    drained := sess.drained ++ sess.manager.drainEvents.2 } where
  wellFormed := ⟨h.wellFormed.distinct, h.wellFormed.range, h.wellFormed.limit, h.wellFormed.bound⟩
  closed id := by
    refine (h.closed id).trans ?_
    simp [emitted, NotificationManager.drainEvents, activeIds]
  file := h.file

theorem Sound.restart (h : sess.Sound) (now : ℤ) : Sound
    { manager := NotificationManager.new.loadHistory now sess.file
      file := sess.file
      allocated := []
      drained := [] } := by
  obtain ⟨hwf, hq, he⟩ := loadHistory_new now h.file
  refine ⟨hwf, ?_, h.file⟩
  intro id
  simp [emitted, he, activeIds, hq]

theorem step_sound (hs : sess.step ev = some next) (hf : sess.hasFreeId ev) (h : sess.Sound)
    : next.Sound := by
  have hwf := h.wellFormed
  cases ev <;> cases hs
  case pushStandard now replacesId title body timeout details =>
    refine h.effect (pushStandard_effect now title body timeout details hwf ?_)
    intro ha
    simpa [hasFreeId, ha] using hf
  case dismiss id => exact h.after (close_effect hwf id 2)
  case closeRequested id => exact h.after (close_effect hwf id 3)
  case invokeAction id actionKey => exact h.after (invokeAction_effect hwf id actionKey)
  case expire now => exact h.after (expire_effect hwf now)
  case clearHistory => exact h.after ⟨_, clearHistory_effect hwf⟩
  case markAllRead => exact h.after ⟨_, markAllRead_effect hwf⟩
  case setDoNotDisturb enabled =>
    have haf : (sess.manager.setDoNotDisturb enabled).WellFormed :=
      ⟨hwf.distinct, hwf.range, hwf.limit, hwf.bound⟩
    exact h.after ⟨_, .of_same haf rfl rfl⟩
  case setHistoryLimit lim => exact h.after ⟨_, setHistoryLimit_effect hwf lim⟩
  case drainEvents => exact h.drainEvents
  case saveHistory now =>
    refine ⟨hwf, h.closed, ?_⟩
    rintro _ ⟨⟩
    exact soundFile_saveHistory hwf now
  case restart now => exact h.restart now

theorem sound_start : start.Sound := ⟨wellFormed_new, fun _ => rfl, nofun⟩

/-- What a step other than a restart emits, and which actions were invoked. -/
theorem step_emitted (hs : sess.step ev = some next) (h : sess.Sound)
    (hr : ∀ now, ev ≠ .restart now) :
    ∃ fresh, next.emitted = sess.emitted ++ fresh ∧ ∀ id actionKey,
      .actionInvoked id actionKey ∈ fresh → sess.manager.Offers id actionKey := by
  have hwf := h.wellFormed
  have ha {manager : NotificationManager}
      (he : ∃ fresh, Effect sess.manager manager [] fresh) :
      ∃ fresh, (sess.after manager).emitted = sess.emitted ++ fresh ∧ ∀ id actionKey,
        .actionInvoked id actionKey ∈ fresh → sess.manager.Offers id actionKey := by
    obtain ⟨fresh, he⟩ := he
    refine ⟨fresh, ?_, he.invoked⟩
    simp [emitted, Session.after, he.events]
  cases ev <;> cases hs
  case pushStandard now replacesId title body timeout details =>
    refine ⟨[], ?_, nofun⟩
    simp only [emitted, pushStandard_events, append_nil]
  case dismiss id => exact ha (close_effect hwf id 2)
  case closeRequested id => exact ha (close_effect hwf id 3)
  case invokeAction id actionKey => exact ha (invokeAction_effect hwf id actionKey)
  case expire now => exact ha (expire_effect hwf now)
  case clearHistory => exact ha ⟨_, clearHistory_effect hwf⟩
  case markAllRead => exact ha ⟨_, markAllRead_effect hwf⟩
  case setDoNotDisturb enabled => exact ⟨[], (append_nil _).symm, nofun⟩
  case setHistoryLimit lim => exact ha ⟨_, setHistoryLimit_effect hwf lim⟩
  case drainEvents =>
    refine ⟨[], ?_, nofun⟩
    simp [emitted, NotificationManager.drainEvents]
  case saveHistory now => exact ⟨[], (append_nil _).symm, nofun⟩
  case restart now => exact absurd rfl (hr now)

end Session

open Session

/-- In every run that pushes only while an id is left, ids are distinct, each is closed once when
it leaves the queue, only actions of queued notifications are invoked, and the history keeps to
its limit. -/
theorem notifications_closed_once (events : List SessionEvent) (final : Session)
    (hfree : Meets step (fun session event => session.hasFreeId event = true) start events)
    (hrun : run step start events = some final) :
    final.Exact ∧ ∀ event next, (∀ now, event ≠ .restart now) → step final event = some next →
      ∃ fresh, next.emitted = final.emitted ++ fresh ∧ ∀ id actionKey,
        .actionInvoked id actionKey ∈ fresh → final.manager.Offers id actionKey := by
  have hs : final.Sound := run_invariant_of_meets Session.step_sound hfree hrun Session.sound_start
  exact ⟨hs.exact, fun event next hr hst => step_emitted hst hs hr⟩

/-! One notification with an action, and one that expires. -/

def sampleSession : List SessionEvent :=
  [.pushStandard 0 0 "Mail" "" none { actions := [⟨"open", "Open"⟩] },
    .pushStandard 0 0 "Done" "" (some 5) {}, .expire 5, .saveHistory 6, .drainEvents]

theorem notifications_closed_once_sample :
    ∃ final : Session, run step start sampleSession = some final ∧
      final.allocated = [1, 2] ∧ final.drained = [.closed 2 1] ∧ final.Exact := by
  have he : (checkedRun step (fun session event => session.hasFreeId event = true) start
      sampleSession).any (fun final => final.allocated = [1, 2] && final.drained = [.closed 2 1]) =
        true := by
    decide
  obtain ⟨hfr, final, hr, hf⟩ := exists_run_of_checked he
  rw [Bool.and_eq_true, decide_eq_true_iff, decide_eq_true_iff] at hf
  exact ⟨final, hr, hf.1, hf.2, (notifications_closed_once sampleSession final hfr hr).1⟩

/-! More notifications than ids. -/

def persistentPush : SessionEvent := .pushStandard 0 0 "" "" none {}

/-- What such a push does. -/
theorem step_persistentPush (session : Session) : ∃ note next,
    note.id = (findId session.manager.ids u32Max session.manager.nextId).2 ∧
      step session persistentPush = some next ∧
        next.manager.queue = session.manager.queue ++ [note] ∧
          next.manager.history = session.manager.history ∧
            next.manager.nextId =
              (findId session.manager.ids u32Max session.manager.nextId).1 := by
  have ha : allocates session.manager 0 := rfl
  obtain ⟨note, hid, hp⟩ := pushStandard_allocated 0 "" "" none {} ha
  refine ⟨note, _, hid, rfl, ?_⟩
  simp only [hp, and_self]

theorem findId_free {nextId : ℕ} (h : candidateId nextId ∉ tk) :
    findId tk u32Max nextId = (followingId (candidateId nextId), candidateId nextId) := by
  have hc : ¬ tk.contains (candidateId nextId) := fun hm => h (contains_iff_mem.mp hm)
  rw [show u32Max = 4294967294 + 1 from rfl, findId, if_neg hc]

/-- So many pushes take the first ids in turn. -/
theorem run_pushes {n : ℕ} (h : n ≤ u32Max) :
    ∃ s : Session, run step start (List.replicate n persistentPush) = some s ∧
      s.manager.queue.map Notification.id = (List.range n).map (· + 1) ∧ s.manager.history = [] ∧
        (n < u32Max → candidateId s.manager.nextId = n + 1) := by
  induction n with
  | zero => exact ⟨start, rfl, rfl, rfl, fun _ => rfl⟩
  | succ n ih =>
    obtain ⟨s, hr, hq, hh, hn⟩ := ih (Nat.le_of_succ_le h)
    obtain ⟨note, t, hid, hs, hq', hh', hn'⟩ := step_persistentPush s
    have hc := hn h
    have hi : s.manager.ids = (List.range n).map (· + 1) := by
      rw [NotificationManager.ids, hh, append_nil, hq]
    have hf : candidateId s.manager.nextId ∉ s.manager.ids := by
      rw [hi, hc]
      simp
    rw [findId_free hf, hc] at hid hn'
    refine ⟨t, ?_, ?_, hh'.trans hh, ?_⟩
    · rw [replicate_succ', run_append_eq_some]
      exact ⟨s, hr, run_cons_eq_some.mpr ⟨t, hs, rfl⟩⟩
    · rw [hq', map_append, hq, range_succ, map_append, map_singleton, map_singleton, hid]
    · intro hlt
      rw [hn', followingId, if_neg (Nat.ne_of_lt hlt), candidateId]
      omega

/-- After that many pushes no id is left, and the next notification gets the id of another. -/
theorem ids_exhausted : ¬ ∀ (events : List SessionEvent) (final : Session),
    run step start events = some final → final.Exact := by
  intro h
  obtain ⟨s, hr, hq, hh, -⟩ := run_pushes (Nat.le_refl u32Max)
  obtain ⟨note, t, hid, hs, hq', hh', -⟩ := step_persistentPush s
  have hi : s.manager.ids = (List.range u32Max).map (· + 1) := by
    rw [NotificationManager.ids, hh, append_nil, hq]
  have ht : note.id ∈ s.manager.ids := by
    rw [hid]
    have hc := findId_cases s.manager.ids u32Max s.manager.nextId
    generalize (findId s.manager.ids u32Max s.manager.nextId).2 = found at hc ⊢
    rw [hi] at hc ⊢
    rcases hc with ⟨-, hpo, hle⟩ | ⟨ho, -⟩
    · have hp : found - 1 ∈ List.range u32Max := mem_range.mpr (by omega)
      exact mem_map.mpr ⟨found - 1, hp, Nat.sub_add_cancel hpo⟩
    · have hz : 0 ∈ List.range u32Max := mem_range.mpr (by decide)
      exact mem_map.mpr ⟨0, hz, ho.symm⟩
  have hr' : run step start (List.replicate u32Max persistentPush ++ [persistentPush]) = some t :=
    run_append_eq_some.mpr ⟨s, hr, run_cons_eq_some.mpr ⟨t, hs, rfl⟩⟩
  have hd := (h _ t hr').distinct
  have hn : t.manager.ids = s.manager.ids ++ [note.id] := by
    rw [NotificationManager.ids, NotificationManager.ids, hq', hh', hh]
    simp
  rw [hn, nodup_append] at hd
  exact hd.2.2 _ ht _ (mem_singleton_self _) rfl

end FocalDesk.Notifications
