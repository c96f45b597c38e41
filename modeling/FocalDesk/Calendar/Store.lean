import FocalDesk.Library.AssocList
import Mathlib.Data.List.Sort
import Mathlib.Order.Defs.LinearOrder
import FocalDesk.Json
import FocalDesk.Text

/-! The calendar database: events, sync cursors and the reminders that were delivered. -/
namespace FocalDesk.Calendar
open Library List

inductive CalendarProvider where
  | «local»
  | google
  | microsoft
deriving DecidableEq

structure CalendarEvent where
  accountId : String
  provider : CalendarProvider
  calendarId : String
  eventId : String
  title : String
  startTime : String
  endTime : String
  organizer : String
  allDay : Bool
  cancelled : Bool
deriving DecidableEq

/-- The primary key of an event. -/
structure EventKey where
  accountId : String
  calendarId : String
  eventId : String
deriving DecidableEq

def CalendarEvent.key (event : CalendarEvent) : EventKey :=
  ⟨event.accountId, event.calendarId, event.eventId⟩

/-- What the date library reads of a text: the second it stands for as an RFC 3339 time or as a
date, and the RFC 3339 time in UTC with whole seconds. -/
structure Chrono where
  rfc3339 : String → Option ℤ
  date : String → Option ℤ
  utc : String → Option String

def parseTime (chrono : Chrono) (value : String) : Except String ℤ :=
  match chrono.rfc3339 value with
  | some seconds => .ok seconds
  | none => okOr (chrono.date value) ("unsupported calendar timestamp: " ++ value)

structure EventRow where
  event : CalendarEvent
  startUnix : ℤ
  endUnix : ℤ
deriving DecidableEq

structure SyncBatch where
  events : List CalendarEvent
  deletedEventIds : List String
  nextCursor : Option String

structure CalendarStore where
  events : List (EventKey × EventRow)
  cursors : List ((String × String) × String)
  /-- The events and starts that were delivered, with the time of it. -/
  delivered : List ((EventKey × ℤ) × ℤ)

structure DueReminder where
  event : CalendarEvent
  reminderAtUnix : ℤ
deriving DecidableEq

/-- The reminder minutes of the accounts. -/
abbrev ReminderMinutes := List (String × ℕ)

def minutesOf (minutes : ReminderMinutes) (accountId : String) : ℕ :=
  (getKey accountId minutes).getD 10

def reminderAt (minutes : ReminderMinutes) (row : EventRow) : ℤ :=
  row.startUnix - (minutesOf minutes row.event.accountId : ℤ) * 60

/-- An upsert of one event. -/
def upsertEvent (chrono : Chrono) (events : List (EventKey × EventRow)) (event : CalendarEvent) :
    Except String (List (EventKey × EventRow)) := do
  let startUnix ← parseTime chrono event.startTime
  let endUnix ← parseTime chrono event.endTime
  .ok (putKey event.key ⟨event, startUnix, endUnix⟩ events)

namespace CalendarStore

def empty : CalendarStore := ⟨[], [], []⟩

variable (store : CalendarStore)

/-- One transaction: with an error nothing is changed. -/
def applySync (chrono : Chrono) (accountId calendarId : String) (batch : SyncBatch) :
    Except String CalendarStore := do
  let events ← batch.events.foldlM (upsertEvent chrono) store.events
  let events := batch.deletedEventIds.foldl
    (fun events eventId => removeKey ⟨accountId, calendarId, eventId⟩ events) events
  let cursors := match batch.nextCursor with
    | none => store.cursors
    | some cursor => putKey (accountId, calendarId) cursor store.cursors
  .ok { store with events, cursors }

def cursor (accountId calendarId : String) : Option String :=
  getKey (accountId, calendarId) store.cursors

def clearCalendar (accountId calendarId : String) : CalendarStore where
  events := store.events.filter fun entry =>
    ¬ (entry.1.accountId = accountId ∧ entry.1.calendarId = calendarId)
  cursors := removeKey (accountId, calendarId) store.cursors
  delivered := store.delivered.filter fun entry =>
    ¬ (entry.1.1.accountId = accountId ∧ entry.1.1.calendarId = calendarId)

/-- The reminder of an event was delivered. -/
def isDelivered (row : EventRow) : Bool :=
  store.delivered.any fun entry => entry.1 = (row.event.key, row.startUnix)

/-- A row that the query selects. -/
def isCandidate (nowUnix graceSeconds : ℤ) (row : EventRow) : Bool :=
  !row.event.cancelled && decide (nowUnix - graceSeconds < row.startUnix) &&
    decide (row.startUnix ≤ nowUnix + 60 * 60) && !store.isDelivered row

/-- The rows of the query: the first hundred by their start. Rows of one start come in the order
in which they are visited. -/
def selected (nowUnix graceSeconds : ℤ) (visited : List EventRow) : List EventRow :=
  ((visited.filter (store.isCandidate nowUnix graceSeconds)).insertionSort
    fun first second => first.startUnix ≤ second.startUnix).take 100

end CalendarStore

def isDue (nowUnix graceSeconds : ℤ) (minutes : ReminderMinutes) (reminder : DueReminder) : Bool :=
  decide (reminder.reminderAtUnix ≤ nowUnix) &&
    decide (nowUnix - graceSeconds < reminder.reminderAtUnix) &&
      decide (0 < minutesOf minutes reminder.event.accountId)

/-- Inserts the row of a reminder, unless there is one. -/
def insertDelivered (chrono : Chrono) (nowUnix : ℤ) (delivered : List ((EventKey × ℤ) × ℤ))
    (reminder : DueReminder) : Except String (List ((EventKey × ℤ) × ℤ)) := do
  let startUnix ← parseTime chrono reminder.event.startTime
  .ok (if delivered.any fun entry => entry.1 = (reminder.event.key, startUnix) then delivered
    else delivered ++ [((reminder.event.key, startUnix), nowUnix)])

/-- The rows of the events table are visited in some order. -/
def CalendarStore.claimDueReminders (store : CalendarStore) (chrono : Chrono)
    (visited : List EventRow) (nowUnix graceSeconds : ℤ) (minutes : ReminderMinutes) :
    Except String (CalendarStore × List DueReminder) := do
  let due := ((store.selected nowUnix graceSeconds visited).map fun row =>
    ⟨row.event, reminderAt minutes row⟩).filter (isDue nowUnix graceSeconds minutes)
  let delivered ← due.foldlM (insertDelivered chrono nowUnix) store.delivered
  .ok ({ store with
      delivered := delivered.filter fun entry => ¬ entry.2 < nowUnix - 90 * 86400 }, due)

/-! What the table holds. -/

/-- The key of each row is that of its event, no two rows have one key, and starts and ends are
those that the texts stand for. -/
structure CalendarStore.Sound (chrono : Chrono) (store : CalendarStore) : Prop where
  keys : ∀ entry ∈ store.events, entry.1 = entry.2.event.key
  distinct : (store.events.map Prod.fst).Nodup
  starts : ∀ entry ∈ store.events, parseTime chrono entry.2.event.startTime = .ok entry.2.startUnix
  ends : ∀ entry ∈ store.events, parseTime chrono entry.2.event.endTime = .ok entry.2.endUnix

variable {chrono : Chrono} {store next : CalendarStore} {events : List (EventKey × EventRow)}

theorem CalendarStore.Sound.sublist (h : store.Sound chrono) (hs : next.events.Sublist store.events)
    : next.Sound chrono where
  keys entry he := h.keys entry (hs.subset he)
  distinct := h.distinct.sublist (hs.map _)
  starts entry he := h.starts entry (hs.subset he)
  ends entry he := h.ends entry (hs.subset he)

theorem upsertEvent_eq_ok {ev : CalendarEvent} {evs' : List (EventKey × EventRow)} :
    upsertEvent chrono events ev = .ok evs' ↔ ∃ startUnix endUnix,
      parseTime chrono ev.startTime = .ok startUnix ∧
        parseTime chrono ev.endTime = .ok endUnix ∧
          evs' = putKey ev.key ⟨ev, startUnix, endUnix⟩ events := by
  simp only [upsertEvent, bind_eq_ok, Except.ok.injEq]
  constructor
  · rintro ⟨startUnix, hs, endUnix, he, rfl⟩
    exact ⟨startUnix, endUnix, hs, he, rfl⟩
  · rintro ⟨startUnix, endUnix, hs, he, rfl⟩
    exact ⟨startUnix, hs, endUnix, he, rfl⟩

theorem CalendarStore.Sound.upsert (h : store.Sound chrono) {ev : CalendarEvent}
    (hu : upsertEvent chrono store.events ev = .ok events) :
    CalendarStore.Sound chrono { store with events } := by
  obtain ⟨startUnix, endUnix, hs, hen, rfl⟩ := (upsertEvent_eq_ok).mp hu
  have hsu : (removeKey ev.key store.events).Sublist store.events := filter_sublist
  have hm {e : EventKey × EventRow}
      (he : e ∈ putKey ev.key ⟨ev, startUnix, endUnix⟩ store.events) :
      e ∈ store.events ∨ e = (ev.key, ⟨ev, startUnix, endUnix⟩) :=
    (mem_append.mp he).imp (fun hold => hsu.subset hold) mem_singleton.mp
  constructor
  · intro e he
    rcases hm he with hold | rfl
    · exact h.keys e hold
    · rfl
  · simp only [putKey, map_append, map_singleton]
    refine nodup_append.mpr ⟨h.distinct.sublist (hsu.map _), nodup_singleton _, ?_⟩
    intro key hk other ho heq
    obtain ⟨e, he, rfl⟩ := mem_map.mp hk
    rw [mem_singleton.mp ho] at heq
    exact of_decide_eq_true (mem_filter.mp he).2 heq
  · intro e he
    rcases hm he with hold | rfl
    · exact h.starts e hold
    · exact hs
  · intro e he
    rcases hm he with hold | rfl
    · exact h.ends e hold
    · exact hen

theorem CalendarStore.Sound.upserts (h : store.Sound chrono) {batch : List CalendarEvent}
    (hu : batch.foldlM (upsertEvent chrono) store.events = .ok events) :
    CalendarStore.Sound chrono { store with events } := by
  induction batch generalizing store with
  | nil =>
    cases hu
    exact h
  | cons ev batch ih =>
    rw [foldlM_cons, bind_eq_ok] at hu
    obtain ⟨between, he, hr⟩ := hu
    exact @ih { store with events := between } (h.upsert he) hr

theorem deletions_sublist (accountId calendarId : String) (del : List String)
    (events : List (EventKey × EventRow)) : (del.foldl (fun events eventId =>
      removeKey ⟨accountId, calendarId, eventId⟩ events) events).Sublist events := by
  induction del generalizing events with
  | nil => exact Sublist.refl _
  | cons eventId del ih => exact (ih _).trans filter_sublist

theorem CalendarStore.Sound.applySync (h : store.Sound chrono) {accountId calendarId : String}
    {batch : SyncBatch} (hs : store.applySync chrono accountId calendarId batch = .ok next) :
    next.Sound chrono := by
  obtain ⟨events, hu, heq⟩ := bind_eq_ok.mp hs
  cases heq
  exact (h.upserts hu).sublist (deletions_sublist accountId calendarId _ events)

theorem CalendarStore.Sound.clearCalendar (h : store.Sound chrono) (accountId calendarId : String) :
    (store.clearCalendar accountId calendarId).Sound chrono :=
  h.sublist filter_sublist

theorem CalendarStore.sound_empty : CalendarStore.empty.Sound chrono :=
  ⟨nofun, nodup_nil, nofun, nofun⟩

end FocalDesk.Calendar

/-! The answers of calendar providers, and the sync over their pages. -/
namespace FocalDesk.Calendar
open Library

def maxPages : ℕ := 100

def maxEventsPerSync : ℕ := 10000

def asArray : Value → Option (List Value)
  | .array items => some items
  | _ => none

def asBool : Value → Option Bool
  | .bool value => some value
  | _ => none

/-- The text of a member. -/
def textAt (value : Value) (key : String) : Option String := (value.get key).bind Value.asStr

/-- The texts at the end of a pointer. -/
def pointerText (value : Value) : List String → Option String
  | [] => value.asStr
  | key :: keys => (value.get key).bind fun inner => pointerText inner keys

def boundedText (value : String) (maxChars : ℕ) : String := String.ofList (value.toList.take maxChars)

def normalizedTime (chrono : Chrono) (value : Value) : Except String (String × Bool) :=
  match textAt value "dateTime" with
  | some time => do
    let parsed ← okOr (chrono.utc time) "invalid provider dateTime"
    .ok (parsed, false)
  | none =>
    match textAt value "date" with
    | some date => do
      let _ ← parseTime chrono date
      .ok (date ++ "T00:00:00Z", true)
    | none => .error "calendar event has no supported start/end time"

/-- What an item of a page asks for. -/
inductive Change where
  | upsert (event : CalendarEvent)
  | delete (eventId : String)

def Change.eventId : Change → String
  | .upsert event => event.eventId
  | .delete eventId => eventId

namespace SyncBatch

def empty : SyncBatch := ⟨[], [], none⟩

def push (batch : SyncBatch) : Change → SyncBatch
  | .upsert event => { batch with events := batch.events ++ [event] }
  | .delete eventId => { batch with deletedEventIds := batch.deletedEventIds ++ [eventId] }

def size (batch : SyncBatch) : ℕ := batch.events.length + batch.deletedEventIds.length

/-- The changes of a page after those of the pages before. -/
def extend (combined batch : SyncBatch) : SyncBatch :=
  { combined with
    events := combined.events ++ batch.events
    deletedEventIds := combined.deletedEventIds ++ batch.deletedEventIds }

end SyncBatch

/-- What the sync of one provider reads of its pages, and its error texts. -/
structure PageReader where
  change : Value → Except String Change
  itemsKey : String
  cursorKey : String
  nextKey : String
  checkLink : Option String → Except String Unit
  gone : String
  tooManyChanges : String
  tooManyPages : String

namespace PageReader

variable (reader : PageReader)

def items (response : Value) : List Value :=
  ((response.get reader.itemsKey).bind asArray).getD []

def addItem (batch : SyncBatch) (item : Value) : Except String SyncBatch := do
  let change ← reader.change item
  .ok (batch.push change)

def batch (response : Value) : Except String SyncBatch :=
  (reader.items response).foldlM reader.addItem
    { SyncBatch.empty with nextCursor := textAt response reader.cursorKey }

end PageReader

/-! Google. -/

section
variable (chrono : Chrono) (accountId calendarId : String)

def googleChange (item : Value) : Except String Change := do
  let id ← okOr (textAt item "id") "Google event missing id"
  bailIf (1024 < byteLen id) "Google event id is too large"
  if textAt item "status" = some "cancelled" then .ok (.delete id)
  else do
    let start ← okOr (item.get "start") "Google event missing start"
    let (startTime, allDay) ← normalizedTime chrono start
    let finish ← okOr (item.get "end") "Google event missing end"
    let (endTime, _) ← normalizedTime chrono finish
    .ok (.upsert
      { accountId
        provider := .google
        calendarId
        eventId := id
        title := boundedText ((textAt item "summary").getD "(untitled event)") 500
        startTime
        endTime
        organizer := boundedText ((pointerText item ["organizer", "email"]).getD "") 320
        allDay
        cancelled := false })

def googleReader : PageReader where
  change := googleChange chrono accountId calendarId
  itemsKey := "items"
  cursorKey := "nextSyncToken"
  nextKey := "nextPageToken"
  checkLink _ := .ok ()
  gone := "google_sync_cursor_expired"
  tooManyChanges := "Google calendar sync exceeds 10000 changes"
  tooManyPages := "Google calendar sync exceeded 100 pages"

def googleBatch (response : Value) : Except String SyncBatch :=
  (googleReader chrono accountId calendarId).batch response

/-! Microsoft. -/

/-- Without a suffix the time is in UTC. -/
def utcText (time : String) : String :=
  if time.toList.getLast? = some 'Z' ∨ '+' ∈ time.toList then time else time ++ "Z"

def microsoftChange (item : Value) : Except String Change := do
  let id ← okOr (textAt item "id") "Microsoft event missing id"
  bailIf (1024 < byteLen id) "Microsoft event id is too large"
  if (item.get "@removed").isSome ∨ (item.get "isCancelled").bind asBool = some true then
    .ok (.delete id)
  else do
    let start ← okOr (pointerText item ["start", "dateTime"]) "Microsoft event missing start"
    let finish ← okOr (pointerText item ["end", "dateTime"]) "Microsoft event missing end"
    let _ ← parseTime chrono (utcText start)
    let _ ← parseTime chrono (utcText finish)
    .ok (.upsert
      { accountId
        provider := .microsoft
        calendarId
        eventId := id
        title := boundedText ((textAt item "subject").getD "(untitled event)") 500
        startTime := utcText start
        endTime := utcText finish
        organizer := boundedText
          ((pointerText item ["organizer", "emailAddress", "address"]).getD "") 320
        allDay := ((item.get "isAllDay").bind asBool).getD false
        cancelled := false })

/-- The scheme and the host of a link, as the URL library reads them. -/
abbrev UrlParser := String → Except String (String × Option String)

def checkDeltaLink (parseUrl : UrlParser) (link : String) : Except String Unit := do
  let (scheme, host) ← parseUrl link
  bailIf (scheme ≠ "https" ∨ host ≠ some "graph.microsoft.com")
    "Microsoft delta link escaped graph.microsoft.com"

def microsoftReader (parseUrl : UrlParser) : PageReader where
  change := microsoftChange chrono accountId calendarId
  itemsKey := "value"
  cursorKey := "@odata.deltaLink"
  nextKey := "@odata.nextLink"
  checkLink link := checkDeltaLink parseUrl (link.getD "")
  gone := "HTTP status client error (410 Gone)"
  tooManyChanges := "Microsoft calendar sync exceeds 10000 changes"
  tooManyPages := "Microsoft calendar sync exceeded 100 pages"

def microsoftBatch (response : Value) : Except String SyncBatch :=
  (microsoftReader chrono accountId calendarId fun _ => .error "").batch response

end

/-! The sync. -/

/-- How a request ends. -/
inductive Reply where
  | failed (message : String)
  | gone
  | page (response : Value)

def Reply.read (reader : PageReader) : Reply → Except String Value
  | .failed message => .error message
  | .gone => .error reader.gone
  | .page response => .ok response

/-- Requests so many pages at most, each with the link that the page before gave. -/
def syncPages (reader : PageReader) (reply : ℕ → Reply) :
    ℕ → ℕ → Option String → SyncBatch → Except String SyncBatch
  | 0, _, _, _ => .error reader.tooManyPages
  | left + 1, k, link, combined => do
    reader.checkLink link
    let response ← (reply k).read reader
    let batch ← reader.batch response
    let combined := combined.extend batch
    bailIf (maxEventsPerSync < combined.size) reader.tooManyChanges
    match textAt response reader.nextKey with
    | some link => syncPages reader reply left (k + 1) (some link) combined
    | none => .ok { combined with nextCursor := batch.nextCursor }

def syncGoogle (chrono : Chrono) (accountId calendarId : String) (reply : ℕ → Reply) :
    Except String SyncBatch :=
  syncPages (googleReader chrono accountId calendarId) reply maxPages 0 none .empty

/-- The first link is the cursor or that of a whole sync. -/
def syncMicrosoft (chrono : Chrono) (accountId calendarId : String) (parseUrl : UrlParser)
    (first : String) (reply : ℕ → Reply) : Except String SyncBatch :=
  syncPages (microsoftReader chrono accountId calendarId parseUrl) reply maxPages 0 (some first)
    .empty

/-- The batch of a sync is applied, when there is one. -/
def applyBatch (chrono : Chrono) (accountId calendarId : String) (batch : Except String SyncBatch)
    (store : CalendarStore) : CalendarStore × Except String Unit :=
  match batch >>= store.applySync chrono accountId calendarId with
  | .error error => (store, .error error)
  | .ok next => (next, .ok ())

end FocalDesk.Calendar
