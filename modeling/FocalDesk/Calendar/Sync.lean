import FocalDesk.Calendar.Store
import Mathlib.Logic.Function.Basic

/-! A paged sync against its pages one by one. -/
namespace FocalDesk.Calendar
open Library List Function

/-- The events table as a map. -/
abbrev Table := EventKey → Option CalendarEvent

def tableOf (events : List (EventKey × EventRow)) : Table :=
  fun key => (getKey key events).map EventRow.event

def putEvent (table : Table) (event : CalendarEvent) : Table :=
  Function.update table event.key (some event)

def dropEvent (accountId calendarId : String) (table : Table) (eventId : String) : Table :=
  Function.update table ⟨accountId, calendarId, eventId⟩ none

/-- A change by itself. -/
def Change.apply (accountId calendarId : String) (table : Table) : Change → Table
  | .upsert event => putEvent table event
  | .delete eventId => dropEvent accountId calendarId table eventId

def Change.event : Change → Option CalendarEvent
  | .upsert event => some event
  | .delete _ => none

def Change.deleted : Change → Option String
  | .upsert _ => none
  | .delete eventId => some eventId

/-- First all upserts and then all deletions. -/
def applyFlat (accountId calendarId : String) (table : Table) (changes : List Change) : Table :=
  (changes.filterMap Change.deleted).foldl (dropEvent accountId calendarId)
    ((changes.filterMap Change.event).foldl putEvent table)

/-- The last change of an event puts it, and an earlier one deletes it. -/
def Revived (eventId : String) (changes : List Change) : Prop :=
  ∃ before event after, changes = before ++ .upsert event :: after ∧ event.eventId = eventId ∧
    .delete eventId ∈ before ∧ ∀ change ∈ after, change.eventId ≠ eventId

/-- The events are those of one calendar. -/
def Within (accountId calendarId : String) (changes : List Change) : Prop :=
  ∀ event, .upsert event ∈ changes → event.key = ⟨accountId, calendarId, event.eventId⟩

section
variable {acc cal eventId : String} {tbl : Table} {changes : List Change} {key : EventKey}

theorem exists_last {α : Type*} {p : α → Prop} {l : List α} (h : ∃ a ∈ l, p a) :
    ∃ before a after, l = before ++ a :: after ∧ p a ∧ ∀ b ∈ after, ¬ p b := by
  induction l with
  | nil =>
    obtain ⟨a, ha, -⟩ := h
    cases ha
  | cons first l ih =>
    by_cases hr : ∃ a ∈ l, p a
    · obtain ⟨before, a, after, rfl, ha, haf⟩ := ih hr
      exact ⟨first :: before, a, after, rfl, ha, haf⟩
    · obtain ⟨a, ha, hp⟩ := h
      rcases mem_cons.mp ha with rfl | ha
      · exact ⟨[], a, l, rfl, hp, fun b hb hpb => hr ⟨b, hb, hpb⟩⟩
      · exact absurd ⟨a, ha, hp⟩ hr

theorem Within.cons {ch : Change} (h : Within acc cal (ch :: changes)) :
    Within acc cal changes :=
  fun ev he => h ev (mem_cons_of_mem _ he)

/-- Changes of other events leave an event as it is. -/
theorem foldl_apply_of_ne (hw : Within acc cal changes)
    (h : ∀ ch ∈ changes, key ≠ ⟨acc, cal, ch.eventId⟩) (tbl : Table) :
    changes.foldl (Change.apply acc cal) tbl key = tbl key := by
  induction changes generalizing tbl with
  | nil => rfl
  | cons ch changes ih =>
    obtain ⟨hne, hr⟩ := forall_mem_cons.mp h
    rw [foldl_cons, ih hw.cons hr]
    cases ch with
    | upsert ev =>
      have hk := hw ev mem_cons_self
      exact update_of_ne (fun heq => hne (heq.trans hk)) _ _
    | delete eventId => exact update_of_ne hne _ _

theorem foldl_dropEvent (del : List String) (tbl : Table) :
    del.foldl (dropEvent acc cal) tbl key =
      if ∃ eventId ∈ del, key = ⟨acc, cal, eventId⟩ then none else tbl key := by
  induction del generalizing tbl with
  | nil => simp
  | cons eventId del ih =>
    rw [foldl_cons, ih]
    by_cases hr : ∃ eventId ∈ del, key = ⟨acc, cal, eventId⟩
    · obtain ⟨other, ho, hk⟩ := hr
      rw [if_pos ⟨other, ho, hk⟩, if_pos ⟨other, mem_cons_of_mem _ ho, hk⟩]
    · rw [if_neg hr]
      by_cases hk : key = ⟨acc, cal, eventId⟩
      · rw [if_pos ⟨eventId, mem_cons_self, hk⟩, hk, dropEvent, update_self]
      · rw [dropEvent, update_of_ne hk, if_neg]
        rintro ⟨other, ho, heq⟩
        rcases mem_cons.mp ho with rfl | ho
        · exact hk heq
        · exact hr ⟨other, ho, heq⟩

/-- What upserts leave of an event depends on nothing else. -/
theorem foldl_putEvent_congr {evs : List CalendarEvent} {tbl table' : Table}
    (h : tbl key = table' key) :
    evs.foldl putEvent tbl key = evs.foldl putEvent table' key := by
  induction evs generalizing tbl table' with
  | nil => exact h
  | cons ev evs ih =>
    refine ih ?_
    by_cases hk : key = ev.key
    · rw [hk, putEvent, putEvent, update_self, update_self]
    · rw [putEvent, putEvent, update_of_ne hk, update_of_ne hk, h]

/-- An event that no change deletes is as the upserts alone leave it. -/
theorem foldl_apply_of_not_deleted (h : ∀ eventId, .delete eventId ∈ changes →
    key ≠ ⟨acc, cal, eventId⟩) (tbl : Table) :
    changes.foldl (Change.apply acc cal) tbl key =
      (changes.filterMap Change.event).foldl putEvent tbl key := by
  induction changes generalizing tbl with
  | nil => rfl
  | cons ch changes ih =>
    have hr := fun eventId hm => h eventId (mem_cons_of_mem ch hm)
    cases ch with
    | upsert ev => exact ih hr _
    | delete eventId =>
      have hne := h eventId mem_cons_self
      exact (ih hr _).trans (foldl_putEvent_congr (update_of_ne hne _ _))

theorem mem_deleted_iff :
    eventId ∈ changes.filterMap Change.deleted ↔ .delete eventId ∈ changes := by
  rw [mem_filterMap]
  constructor
  · rintro ⟨ch, hc, hd⟩
    cases ch with
    | upsert ev => cases hd
    | delete other =>
      cases hd
      exact hc
  · exact fun h => ⟨_, h, rfl⟩

theorem applyFlat_deleted (h : .delete eventId ∈ changes) (tbl : Table) :
    applyFlat acc cal tbl changes ⟨acc, cal, eventId⟩ = none := by
  rw [applyFlat, foldl_dropEvent, if_pos ⟨eventId, (mem_deleted_iff).mpr h, rfl⟩]

theorem applyFlat_of_not_deleted (h : ∀ eventId, .delete eventId ∈ changes →
    key ≠ ⟨acc, cal, eventId⟩) (tbl : Table) :
    applyFlat acc cal tbl changes key =
      (changes.filterMap Change.event).foldl putEvent tbl key := by
  rw [applyFlat, foldl_dropEvent, if_neg]
  rintro ⟨eventId, hm, hk⟩
  exact h eventId ((mem_deleted_iff).mp hm) hk

/-- The last change of an event says what is left of it. -/
theorem foldl_apply_last {before after : List Change} {ch : Change}
    (hwi : Within acc cal (before ++ ch :: after))
    (ha : ∀ later ∈ after, later.eventId ≠ ch.eventId) (tbl : Table) :
    (before ++ ch :: after).foldl (Change.apply acc cal) tbl ⟨acc, cal, ch.eventId⟩ = ch.event := by
  have hw : Within acc cal after := fun ev he =>
    hwi ev (mem_append_right _ (mem_cons_of_mem _ he))
  rw [foldl_append, foldl_cons, foldl_apply_of_ne hw]
  · cases ch with
    | upsert ev =>
      have hk := hwi ev (mem_append_right _ mem_cons_self)
      rw [Change.eventId, ← hk]
      exact update_self _ _ _
    | delete eventId => exact update_self _ _ _
  · intro later hl heq
    exact ha later hl (congrArg EventKey.eventId heq).symm

/-- All upserts first and all deletions last is the same as one change after the other exactly when
nothing is revived. -/
theorem applyFlat_eq_iff (hw : Within acc cal changes) (tbl : Table) :
    applyFlat acc cal tbl changes =
        changes.foldl (Change.apply acc cal) tbl ↔
      ∀ eventId, ¬ Revived eventId changes := by
  constructor
  · rintro h eventId ⟨before, ev, after, rfl, rfl, hd, ha⟩
    have hl := foldl_apply_last hw ha tbl
    rw [← h] at hl
    cases (applyFlat_deleted (mem_append_left _ hd) tbl).symm.trans hl
  · intro h
    funext key
    by_cases hd : ∃ eventId, .delete eventId ∈ changes ∧ key = ⟨acc, cal, eventId⟩
    · obtain ⟨eventId, hm, rfl⟩ := hd
      rw [applyFlat_deleted hm]
      obtain ⟨before, ch, after, rfl, rfl, ha⟩ := exists_last
        (p := fun ch => ch.eventId = eventId) ⟨_, hm, rfl⟩
      rw [foldl_apply_last hw ha]
      cases ch with
      | delete eventId => rfl
      | upsert ev =>
        refine absurd ⟨before, ev, after, rfl, rfl, ?_, ha⟩ (h ev.eventId)
        rcases mem_append.mp hm with hm | hm
        · exact hm
        · rcases mem_cons.mp hm with hm | hm
          · cases hm
          · exact absurd rfl (ha (.delete ev.eventId) hm)
    · have hk : ∀ eventId, .delete eventId ∈ changes → key ≠ ⟨acc, cal, eventId⟩ :=
        fun eventId hm hke => hd ⟨eventId, hm, hke⟩
      rw [applyFlat_of_not_deleted hk, foldl_apply_of_not_deleted hk]

end

/-! Pages. -/

namespace PageReader

variable (reader : PageReader)

/-- The changes of a page, in its order. -/
def changes (response : Value) : Except String (List Change) :=
  (reader.items response).mapM reader.change

/-- The changes of a page that can be read. -/
def changesOf (response : Value) : List Change := ((reader.changes response).toOption).getD []

def cursor (response : Value) : Option String := textAt response reader.cursorKey

end PageReader

/-- The batch of some changes. -/
def batchOf (changes : List Change) (cursor : Option String) : SyncBatch where
  events := changes.filterMap Change.event
  deletedEventIds := changes.filterMap Change.deleted
  nextCursor := cursor

theorem size_batchOf (changes : List Change) (cursor : Option String) :
    (batchOf changes cursor).size = changes.length := by
  induction changes with
  | nil => rfl
  | cons ch changes ih =>
    simp only [batchOf, SyncBatch.size] at ih ⊢
    cases ch with
    | upsert ev =>
      show (changes.filterMap Change.event).length + 1 +
        (changes.filterMap Change.deleted).length = changes.length + 1
      omega
    | delete eventId =>
      show (changes.filterMap Change.event).length +
        ((changes.filterMap Change.deleted).length + 1) = changes.length + 1
      omega

theorem extend_batchOf (changes more : List Change) (cursor cursor' : Option String) :
    (batchOf changes cursor).extend (batchOf more cursor') = batchOf (changes ++ more) cursor := by
  simp [batchOf, SyncBatch.extend]

section
variable {reader : PageReader} {resp : Value} {changes : List Change} {reply : ℕ → Reply}
  {k left : ℕ} {link : Option String} {pages : List Value}

theorem push_batchOf (changes : List Change) (cursor : Option String) (ch : Change) :
    (batchOf changes cursor).push ch = batchOf (changes ++ [ch]) cursor := by
  cases ch <;> simp [batchOf, SyncBatch.push, Change.event, Change.deleted]

/-- The loop over the items collects their changes. -/
theorem foldlM_addItem (its : List Value) (before : List Change) (cursor : Option String) :
    its.foldlM reader.addItem (batchOf before cursor) =
      (its.mapM reader.change).map fun changes => batchOf (before ++ changes) cursor := by
  induction its generalizing before with
  | nil =>
    rw [mapM_nil]
    exact congrArg (fun changes => Except.ok (batchOf changes cursor)) (append_nil before).symm
  | cons item its ih =>
    rw [foldlM_cons, mapM_cons, PageReader.addItem]
    cases reader.change item with
    | error error => rfl
    | ok ch =>
      refine (congrArg (fun batch => its.foldlM reader.addItem batch)
        (push_batchOf before cursor ch)).trans ((ih _).trans ?_)
      cases its.mapM reader.change with
      | error error => rfl
      | ok changes =>
        exact congrArg (fun changes => Except.ok (batchOf changes cursor))
          (append_assoc before [ch] changes)

theorem batch_eq (resp : Value) :
    reader.batch resp =
      (reader.changes resp).map fun changes => batchOf changes (reader.cursor resp) :=
  foldlM_addItem (reader.items resp) [] (reader.cursor resp)

theorem batch_ok (h : reader.changes resp = .ok changes) :
    reader.batch resp = .ok (batchOf changes (reader.cursor resp)) := by
  rw [batch_eq, h]
  rfl

theorem batch_error {err : String} (h : reader.changes resp = .error err) :
    reader.batch resp = .error err := by
  rw [batch_eq, h]
  rfl

/-- The provider answers with these pages, from some request on. -/
inductive Serves (reader : PageReader) (reply : ℕ → Reply) :
    ℕ → Option String → List Value → Prop
  | last {k : ℕ} {link : Option String} {response : Value} (hlink : reader.checkLink link = .ok ())
      (hreply : reply k = .page response) (hend : textAt response reader.nextKey = none) :
      Serves reader reply k link [response]
  | next {k : ℕ} {link : Option String} {response : Value} {following : String}
      {pages : List Value} (hlink : reader.checkLink link = .ok ())
      (hreply : reply k = .page response)
      (hnext : textAt response reader.nextKey = some following)
      (hpages : Serves reader reply (k + 1) (some following) pages) :
      Serves reader reply k link (response :: pages)

/-! One page of the loop. -/

theorem syncPages_unread {err : String} (hlink : reader.checkLink link = .ok ())
    (hreply : reply k = .page resp) (hchanges : reader.changes resp = .error err)
    (combined : SyncBatch) : syncPages reader reply (left + 1) k link combined = .error err := by
  rw [syncPages, hlink, hreply]
  simp only [Reply.read, bind, Except.bind, batch_error hchanges]

section
variable (hlink : reader.checkLink link = .ok ()) (hreply : reply k = .page resp)
  (hchanges : reader.changes resp = .ok changes) (pre : List Change)
include hlink hreply hchanges

theorem syncPages_over (ho : maxEventsPerSync < (pre ++ changes).length) :
    syncPages reader reply (left + 1) k link (batchOf pre none) = .error reader.tooManyChanges := by
  rw [syncPages, hlink, hreply]
  simp only [Reply.read, bind, Except.bind, batch_ok hchanges, extend_batchOf, size_batchOf, bailIf,
    if_pos ho]

theorem syncPages_next {following : String}
    (hf : ¬ maxEventsPerSync < (pre ++ changes).length)
    (hn : textAt resp reader.nextKey = some following) :
    syncPages reader reply (left + 1) k link (batchOf pre none) =
      syncPages reader reply left (k + 1) (some following) (batchOf (pre ++ changes) none) := by
  rw [syncPages, hlink, hreply]
  simp only [Reply.read, bind, Except.bind, batch_ok hchanges, extend_batchOf, size_batchOf, bailIf,
    if_neg hf, hn]

theorem syncPages_last (hf : ¬ maxEventsPerSync < (pre ++ changes).length)
    (he : textAt resp reader.nextKey = none) :
    syncPages reader reply (left + 1) k link (batchOf pre none) =
      .ok (batchOf (pre ++ changes) (reader.cursor resp)) := by
  rw [syncPages, hlink, hreply]
  simp only [Reply.read, bind, Except.bind, batch_ok hchanges, extend_batchOf, size_batchOf, bailIf,
    if_neg hf, he]
  rfl

end

/-- The pages can be read, and stay within the limits. -/
structure Fits (reader : PageReader) (left : ℕ) (before : List Change) (pages : List Value) :
    Prop where
  readable : ∀ page ∈ pages, ∃ changes, reader.changes page = .ok changes
  count : pages.length ≤ left
  size : (before ++ pages.flatMap reader.changesOf).length ≤ maxEventsPerSync

theorem changesOf_eq (h : reader.changes resp = .ok changes) :
    reader.changesOf resp = changes := by
  rw [PageReader.changesOf, h]
  rfl

theorem Serves.sync (h : Serves reader reply k link pages) {before : List Change}
    (hf : Fits reader left before pages) :
    syncPages reader reply left k link (batchOf before none) =
      .ok (batchOf (before ++ pages.flatMap reader.changesOf)
        (pages.getLast?.bind reader.cursor)) := by
  induction h generalizing left before with
  | last hlink hreply he =>
    obtain ⟨changes, hchanges⟩ := hf.readable _ mem_cons_self
    have hs := hf.size
    obtain ⟨left, rfl⟩ := Nat.exists_eq_succ_of_ne_zero (Nat.pos_iff_ne_zero.mp hf.count)
    simp only [flatMap_cons, flatMap_nil, append_nil, changesOf_eq hchanges] at hs ⊢
    exact syncPages_last hlink hreply hchanges before (Nat.not_lt.mpr hs) he
  | @next k link resp following pages hlink hreply hn hp ih =>
    obtain ⟨changes, hchanges⟩ := hf.readable _ mem_cons_self
    have hs := hf.size
    have hc := hf.count
    obtain ⟨left, rfl⟩ := Nat.exists_eq_succ_of_ne_zero (Nat.pos_iff_ne_zero.mp
      (Nat.lt_of_lt_of_le (Nat.succ_pos _) hc))
    have hl : (resp :: pages).getLast? = pages.getLast? := by
      cases hp <;> simp [getLast?_cons_cons]
    simp only [flatMap_cons, changesOf_eq hchanges, hl, ← append_assoc] at hs ⊢
    have hfi : ¬ maxEventsPerSync < (before ++ changes).length := by
      rw [length_append] at hs
      omega
    rw [syncPages_next hlink hreply hchanges before hfi hn]
    refine ih ⟨fun page hpa => hf.readable page (mem_cons_of_mem _ hpa), ?_, hs⟩
    exact Nat.le_of_succ_le_succ hc

theorem Serves.sync_error (h : Serves reader reply k link pages) {before : List Change}
    (hf : ¬ Fits reader left before pages) :
    ∃ error, syncPages reader reply left k link (batchOf before none) = .error error := by
  induction h generalizing left before with
  | @last k link resp hlink hreply he =>
    cases left with
    | zero => exact ⟨_, rfl⟩
    | succ left =>
      cases hchanges : reader.changes resp with
      | error error => exact ⟨_, syncPages_unread hlink hreply hchanges _⟩
      | ok changes =>
        refine ⟨_, syncPages_over hlink hreply hchanges before ?_⟩
        by_contra hs
        refine hf ⟨?_, Nat.succ_le_succ (Nat.zero_le _), ?_⟩
        · intro page hp
          rw [mem_singleton.mp hp]
          exact ⟨changes, hchanges⟩
        · simp only [flatMap_cons, flatMap_nil, append_nil, changesOf_eq hchanges]
          exact Nat.not_lt.mp hs
  | @next k link resp following pages hlink hreply hn hpa ih =>
    cases left with
    | zero => exact ⟨_, rfl⟩
    | succ left =>
      cases hchanges : reader.changes resp with
      | error error => exact ⟨_, syncPages_unread hlink hreply hchanges _⟩
      | ok changes =>
        by_cases hs : maxEventsPerSync < (before ++ changes).length
        · exact ⟨_, syncPages_over hlink hreply hchanges before hs⟩
        · rw [syncPages_next hlink hreply hchanges before hs hn]
          refine ih fun hr => hf ⟨?_, Nat.succ_le_succ hr.count, ?_⟩
          · intro page hp
            rcases mem_cons.mp hp with rfl | hp
            · exact ⟨changes, hchanges⟩
            · exact hr.readable page hp
          · have hl := hr.size
            rwa [append_assoc, ← changesOf_eq hchanges, ← flatMap_cons] at hl

end

/-! The store. -/

section
variable {chrono : Chrono} {acc cal : String} {sto : CalendarStore} {changes : List Change}

theorem tableOf_putKey (evs : List (EventKey × EventRow)) (ev : CalendarEvent)
    (startUnix endUnix : ℤ) :
    tableOf (putKey ev.key ⟨ev, startUnix, endUnix⟩ evs) = putEvent (tableOf evs) ev := by
  funext key
  by_cases hk : key = ev.key
  · rw [hk, tableOf, getKey_putKey_self, putEvent, update_self]
    rfl
  · rw [tableOf, getKey_putKey_of_ne hk, putEvent, update_of_ne hk, tableOf]

theorem tableOf_removeKey (evs : List (EventKey × EventRow)) (eventId : String) :
    tableOf (removeKey ⟨acc, cal, eventId⟩ evs) = dropEvent acc cal (tableOf evs) eventId := by
  funext key
  by_cases hk : key = ⟨acc, cal, eventId⟩
  · rw [hk, tableOf, getKey_removeKey_self, dropEvent, update_self]
    rfl
  · rw [tableOf, getKey_removeKey_of_ne hk, dropEvent, update_of_ne hk, tableOf]

theorem tableOf_deletions (del : List String) (evs : List (EventKey × EventRow)) :
    tableOf (del.foldl (fun evs eventId =>
        removeKey ⟨acc, cal, eventId⟩ evs) evs) =
      del.foldl (dropEvent acc cal) (tableOf evs) := by
  induction del generalizing evs with
  | nil => rfl
  | cons eventId del ih => rw [foldl_cons, foldl_cons, ih, tableOf_removeKey]

/-- The times of an event can be read. -/
def Timed (chrono : Chrono) (event : CalendarEvent) : Prop :=
  (∃ seconds, parseTime chrono event.startTime = .ok seconds) ∧
    ∃ seconds, parseTime chrono event.endTime = .ok seconds

theorem tableOf_upserts {batch : List CalendarEvent} (h : ∀ ev ∈ batch, Timed chrono ev)
    (evs : List (EventKey × EventRow)) :
    ∃ evs', batch.foldlM (upsertEvent chrono) evs = .ok evs' ∧
      tableOf evs' = batch.foldl putEvent (tableOf evs) := by
  induction batch generalizing evs with
  | nil => exact ⟨evs, rfl, rfl⟩
  | cons ev batch ih =>
    obtain ⟨⟨⟨startUnix, hs⟩, endUnix, he⟩, hr⟩ := forall_mem_cons.mp h
    obtain ⟨evs', hf, ht⟩ := ih hr (putKey ev.key ⟨ev, startUnix, endUnix⟩ evs)
    refine ⟨evs', ?_, ?_⟩
    · rw [foldlM_cons, bind_eq_ok]
      exact ⟨_, upsertEvent_eq_ok.mpr ⟨startUnix, endUnix, hs, he, rfl⟩, hf⟩
    · rw [ht, tableOf_putKey, foldl_cons]

/-- What a batch leaves in the store. -/
theorem applySync_batchOf (acc cal : String) (sto : CalendarStore)
    (h : ∀ ev, .upsert ev ∈ changes → Timed chrono ev) (cursor : Option String) :
    ∃ next, sto.applySync chrono acc cal (batchOf changes cursor) = .ok next ∧
      tableOf next.events = applyFlat acc cal (tableOf sto.events) changes ∧
        next.cursor acc cal =
          cursor.orElse fun _ => sto.cursor acc cal := by
  have ht : ∀ ev ∈ changes.filterMap Change.event, Timed chrono ev := by
    intro ev he
    obtain ⟨ch, hc, heq⟩ := mem_filterMap.mp he
    cases ch with
    | upsert ev =>
      cases heq
      exact h ev hc
    | delete eventId => cases heq
  obtain ⟨evs, hf, hta⟩ := tableOf_upserts ht sto.events
  refine ⟨_, bind_eq_ok.mpr ⟨evs, hf, rfl⟩, ?_, ?_⟩
  · rw [applyFlat, ← hta]
    exact tableOf_deletions _ _
  · cases cursor with
    | none => rfl
    | some cursor => exact getKey_putKey_self

end

/-- A page by itself. -/
def pageTable (reader : PageReader) (accountId calendarId : String) (table : Table) (page : Value)
    : Table :=
  (reader.changesOf page).foldl (Change.apply accountId calendarId) table

def pageCursor (reader : PageReader) (cursor : Option String) (page : Value) : Option String :=
  (reader.cursor page).orElse fun _ => cursor

/-- Pages within the limits that can be read, with events whose times can be read, and with the
cursor on the last one only. -/
structure WellFormedPages (chrono : Chrono) (reader : PageReader) (pages : List Value) :
    Prop where
  fits : Fits reader maxPages [] pages
  times : ∀ event, .upsert event ∈ pages.flatMap reader.changesOf → Timed chrono event
  cursors : ∀ page ∈ pages.dropLast, reader.cursor page = none

/-- A sync leaves what its pages one by one leave, and one that fails leaves everything. -/
structure PageByPage (chrono : Chrono) (accountId calendarId : String) (reader : PageReader)
    (first : Option String) (reply : ℕ → Reply) (batch : Except String SyncBatch)
    (store : CalendarStore) : Prop where
  same : ∀ pages, Serves reader reply 0 first pages → WellFormedPages chrono reader pages →
    ∃ next, applyBatch chrono accountId calendarId batch store = (next, .ok ()) ∧
      tableOf next.events =
        pages.foldl (pageTable reader accountId calendarId) (tableOf store.events) ∧
      next.cursor accountId calendarId =
        pages.foldl (pageCursor reader) (store.cursor accountId calendarId)
  failed : ∀ pages, Serves reader reply 0 first pages → ¬ Fits reader maxPages [] pages →
    ∃ error, applyBatch chrono accountId calendarId batch store = (store, .error error)

/-- No event is revived by the pages that are served. -/
def NoneRevived (chrono : Chrono) (reader : PageReader) (first : Option String) (reply : ℕ → Reply)
    : Prop :=
  ∀ pages, Serves reader reply 0 first pages → WellFormedPages chrono reader pages →
    ∀ eventId, ¬ Revived eventId (pages.flatMap reader.changesOf)

section
variable {chrono : Chrono} {acc cal : String} {reader : PageReader}
  {fst : Option String} {reply : ℕ → Reply} {sto : CalendarStore} {pages : List Value}

theorem foldl_pageTable (pages : List Value) (table : Table) :
    pages.foldl (pageTable reader acc cal) table =
      (pages.flatMap reader.changesOf).foldl (Change.apply acc cal) table := by
  induction pages generalizing table with
  | nil => rfl
  | cons page pages ih => rw [foldl_cons, ih, flatMap_cons, foldl_append, pageTable]

theorem foldl_pageCursor (h : ∀ page ∈ pages.dropLast, reader.cursor page = none)
    (cursor : Option String) :
    pages.foldl (pageCursor reader) cursor =
      (pages.getLast?.bind reader.cursor).orElse fun _ => cursor := by
  induction pages generalizing cursor with
  | nil => rfl
  | cons page pages ih =>
    cases pages with
    | nil => rfl
    | cons snd rest =>
      rw [dropLast_cons_cons] at h
      obtain ⟨hf, hr⟩ := forall_mem_cons.mp h
      rw [foldl_cons, ih hr, pageCursor, hf, getLast?_cons_cons]
      rfl

theorem exists_item {its : List Value} {changes : List Change}
    (h : its.mapM reader.change = .ok changes) {ch : Change} (hm : ch ∈ changes) :
    ∃ item ∈ its, reader.change item = .ok ch := by
  induction its generalizing changes with
  | nil =>
    rw [mapM_nil, pure_eq_ok] at h
    subst h
    cases hm
  | cons item its ih =>
    rw [mapM_cons] at h
    obtain ⟨fst, hf, h⟩ := bind_eq_ok.mp h
    obtain ⟨rest, hr, h⟩ := bind_eq_ok.mp h
    rw [pure_eq_ok] at h
    subst h
    rcases mem_cons.mp hm with rfl | hm
    · exact ⟨item, mem_cons_self, hf⟩
    · obtain ⟨other, ho, hc⟩ := ih hr hm
      exact ⟨other, mem_cons_of_mem _ ho, hc⟩

theorem within_pages (hk : ∀ item ev, reader.change item = .ok (.upsert ev) →
    ev.key = ⟨acc, cal, ev.eventId⟩) (pages : List Value) :
    Within acc cal (pages.flatMap reader.changesOf) := by
  intro ev he
  obtain ⟨page, -, hp⟩ := mem_flatMap.mp he
  cases hchanges : reader.changes page with
  | error error =>
    rw [PageReader.changesOf, hchanges] at hp
    cases hp
  | ok changes =>
    rw [changesOf_eq hchanges] at hp
    obtain ⟨item, -, hc⟩ := exists_item hchanges hp
    exact hk item ev hc

/-- A sync of pages that can be read, and what it leaves. -/
theorem sync_served (hs : Serves reader reply 0 fst pages)
    (hp : WellFormedPages chrono reader pages) (acc cal : String) (sto : CalendarStore) :
    ∃ next, applyBatch chrono acc cal
        (syncPages reader reply maxPages 0 fst .empty) sto = (next, .ok ()) ∧
      tableOf next.events = applyFlat acc cal (tableOf sto.events)
        (pages.flatMap reader.changesOf) ∧
      next.cursor acc cal =
        pages.foldl (pageCursor reader) (sto.cursor acc cal) := by
  have hsy : syncPages reader reply maxPages 0 fst .empty =
      .ok (batchOf (pages.flatMap reader.changesOf) (pages.getLast?.bind reader.cursor)) :=
    hs.sync hp.fits
  obtain ⟨next, ha, ht, hc⟩ := applySync_batchOf acc cal sto
    hp.times (pages.getLast?.bind reader.cursor)
  refine ⟨next, ?_, ht, ?_⟩
  · have hb : (.ok (batchOf (pages.flatMap reader.changesOf) (pages.getLast?.bind reader.cursor))
        >>= sto.applySync chrono acc cal) = .ok next := ha
    rw [applyBatch, hsy, hb]
  · rw [hc, foldl_pageCursor hp.cursors]

theorem pageByPage_iff (hk : ∀ item ev, reader.change item = .ok (.upsert ev) →
      ev.key = ⟨acc, cal, ev.eventId⟩) :
    PageByPage chrono acc cal reader fst reply
        (syncPages reader reply maxPages 0 fst .empty) sto ↔
      NoneRevived chrono reader fst reply := by
  constructor
  · intro h pages hs hp
    obtain ⟨next, ha, ht, -⟩ := h.same pages hs hp
    obtain ⟨other, ho, hf, -⟩ := sync_served hs hp acc cal sto
    obtain rfl : next = other := congrArg Prod.fst (ha.symm.trans ho)
    rw [foldl_pageTable] at ht
    exact (applyFlat_eq_iff (within_pages hk pages) _).mp (hf.symm.trans ht)
  · intro h
    constructor
    · intro pages hs hp
      obtain ⟨next, ha, hf, hc⟩ := sync_served hs hp acc cal sto
      refine ⟨next, ha, ?_, hc⟩
      rw [hf, foldl_pageTable]
      exact (applyFlat_eq_iff (within_pages hk pages) _).mpr (h pages hs hp)
    · intro pages hs hfi
      obtain ⟨err, hsy⟩ := hs.sync_error hfi
      refine ⟨err, ?_⟩
      have he : syncPages reader reply maxPages 0 fst .empty = .error err := hsy
      rw [applyBatch, he]
      rfl

end

theorem key_of_googleChange {chrono : Chrono} {accountId calendarId : String} {item : Value}
    {ev : CalendarEvent}
    (h : googleChange chrono accountId calendarId item = .ok (.upsert ev)) :
    ev.key = ⟨accountId, calendarId, ev.eventId⟩ := by
  obtain ⟨id, -, h⟩ := bind_eq_ok.mp h
  obtain ⟨-, h⟩ := unit_bind_eq_ok.mp h
  split at h
  · cases h
  · obtain ⟨start, -, h⟩ := bind_eq_ok.mp h
    obtain ⟨startTime, -, h⟩ := bind_eq_ok.mp h
    obtain ⟨finish, -, h⟩ := bind_eq_ok.mp h
    obtain ⟨endTime, -, h⟩ := bind_eq_ok.mp h
    cases h
    rfl

theorem key_of_microsoftChange {chrono : Chrono} {accountId calendarId : String} {item : Value}
    {ev : CalendarEvent}
    (h : microsoftChange chrono accountId calendarId item = .ok (.upsert ev)) :
    ev.key = ⟨accountId, calendarId, ev.eventId⟩ := by
  obtain ⟨id, -, h⟩ := bind_eq_ok.mp h
  obtain ⟨-, h⟩ := unit_bind_eq_ok.mp h
  split at h
  · cases h
  · obtain ⟨start, -, h⟩ := bind_eq_ok.mp h
    obtain ⟨finish, -, h⟩ := bind_eq_ok.mp h
    obtain ⟨startUnix, -, h⟩ := bind_eq_ok.mp h
    obtain ⟨endUnix, -, h⟩ := bind_eq_ok.mp h
    cases h
    rfl

/-- For both providers a sync is the same as its pages one by one, and changes nothing when it
fails, exactly when no page upserts last an event that was deleted before. -/
theorem paged_sync_iff (chrono : Chrono) (accountId calendarId : String) (store : CalendarStore)
    (reply : ℕ → Reply) (parseUrl : UrlParser) (first : String) :
    (PageByPage chrono accountId calendarId (googleReader chrono accountId calendarId) none reply
        (syncGoogle chrono accountId calendarId reply) store ↔
      NoneRevived chrono (googleReader chrono accountId calendarId) none reply) ∧
    (PageByPage chrono accountId calendarId
        (microsoftReader chrono accountId calendarId parseUrl) (some first) reply
        (syncMicrosoft chrono accountId calendarId parseUrl first reply) store ↔
      NoneRevived chrono (microsoftReader chrono accountId calendarId parseUrl) (some first)
        reply) :=
  ⟨pageByPage_iff fun _ _ h => key_of_googleChange h,
    pageByPage_iff fun _ _ h => key_of_microsoftChange h⟩

/-! An event that is deleted on the first page and there again on the second. -/

def octoberChrono : Chrono where
  rfc3339 text := if text = "2026-10-14T13:00:00Z" then some 1791982800
    else if text = "2026-10-14T14:00:00Z" then some 1791986400 else none
  date _ := none
  utc text := if text = "2026-10-14T13:00:00Z" ∨ text = "2026-10-14T14:00:00Z" then some text
    else none

def deletionPage : Value := .object
  [("items", .array [.object [("id", .string "x"), ("status", .string "cancelled")]]),
    ("nextPageToken", .string "t")]

def revivalPage : Value := .object
  [("items", .array [.object [("id", .string "x"),
      ("start", .object [("dateTime", .string "2026-10-14T13:00:00Z")]),
      ("end", .object [("dateTime", .string "2026-10-14T14:00:00Z")])]]),
    ("nextSyncToken", .string "s")]

def twoPages : ℕ → Reply
  | 0 => .page deletionPage
  | _ => .page revivalPage

def revivedEvent : CalendarEvent where
  accountId := "a"
  provider := .google
  calendarId := "primary"
  eventId := "x"
  title := "(untitled event)"
  startTime := "2026-10-14T13:00:00Z"
  endTime := "2026-10-14T14:00:00Z"
  organizer := ""
  allDay := false
  cancelled := false

theorem changes_deletionPage :
    (googleReader octoberChrono "a" "primary").changes deletionPage = .ok [.delete "x"] := rfl

theorem changes_revivalPage :
    (googleReader octoberChrono "a" "primary").changes revivalPage = .ok [.upsert revivedEvent] :=
  rfl

/-- The deletion of the first page is applied after the event of the second. -/
theorem revived_event_lost : ¬ ∀ (chrono : Chrono) (accountId calendarId : String)
    (store : CalendarStore) (reply : ℕ → Reply),
    PageByPage chrono accountId calendarId (googleReader chrono accountId calendarId) none reply
      (syncGoogle chrono accountId calendarId reply) store := by
  intro h
  have hn := (pageByPage_iff fun _ _ h => key_of_googleChange h).mp
    (h octoberChrono "a" "primary" .empty twoPages)
  have hchanges : [deletionPage, revivalPage].flatMap
      (googleReader octoberChrono "a" "primary").changesOf =
        [.delete "x", .upsert revivedEvent] := by
    simp only [flatMap_cons, flatMap_nil, changesOf_eq changes_deletionPage,
      changesOf_eq changes_revivalPage]
    rfl
  refine hn [deletionPage, revivalPage] (.next rfl rfl rfl (.last rfl rfl rfl))
    ⟨⟨?_, ?_, ?_⟩, ?_, ?_⟩ "x" ?_
  · intro page hp
    rcases mem_cons.mp hp with rfl | hp
    · exact ⟨_, changes_deletionPage⟩
    · rw [mem_singleton.mp hp]
      exact ⟨_, changes_revivalPage⟩
  · decide
  · rw [hchanges]
    decide
  · intro ev he
    rw [hchanges] at he
    rcases mem_cons.mp he with heq | he
    · cases heq
    · cases mem_singleton.mp he
      exact ⟨⟨_, rfl⟩, _, rfl⟩
  · intro page hp
    rw [mem_singleton.mp hp]
    rfl
  · rw [hchanges]
    exact ⟨[.delete "x"], revivedEvent, [], rfl, rfl, mem_singleton_self _, nofun⟩

end FocalDesk.Calendar
