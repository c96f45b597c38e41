import FocalDesk.Calendar.Accounts
import FocalDesk.Calendar.Delivery
import FocalDesk.Library.Program

/-! The rounds over the calendars of a provider's accounts: what they publish and store. -/
namespace FocalDesk.Calendar
open Library

/-- What the steps for one calendar meet: the read of its cursor, the download with the cursor, the
removal of what is stored and the download without the cursor, the publish of the event at an
index, and the write of the batch. -/
structure CalendarReplies where
  cursor : Except String Unit
  answer : Except String SyncBatch
  cleared : Except String Unit
  fullAnswer : Except String SyncBatch
  publishes : ℕ → Except String Unit
  stored : Except String Unit

/-- What the steps for an account meet: its secret, the refresh of its tokens with a refresh token
that may be rotated, and the write of that one. -/
structure AccountReplies where
  refreshToken : Except String String
  tokens : Except String (Option String)
  saved : Except String Unit
  calendars : String → CalendarReplies

/-- One call of `run_cloud_calendar`, with the accounts of the file and what their steps meet. -/
structure CloudCall where
  provider : CalendarProvider
  remote : provider ≠ .local
  networkAllowed : Bool
  document : Except String (List (CalendarAccount × AccountReplies))
  clients : Except String Unit

inductive CloudEvent where
  | published (accountId calendarId : String) (event : CalendarEvent)
  | stored (accountId calendarId : String) (events : List CalendarEvent)
deriving DecidableEq

structure Cloud where
  store : CalendarStore
  log : List CloudEvent
  delivered : ℕ

/-- A step that only goes on with a reply or fails. -/
def reply {α : Type} (result : Except String α) : EStateM String Cloud α :=
  match result with
  | .ok value => pure value
  | .error error => throw error

def publishManaged (accountId calendarId : String) (event : CalendarEvent) (cloud : Cloud) :
    Cloud :=
  { cloud with
    log := cloud.log ++ [.published accountId calendarId event]
    delivered := cloud.delivered + 1 }

/-- The events in order, from the one at an index. -/
def publishEvents (accountId calendarId : String) (publishes : ℕ → Except String Unit) :
    ℕ → List CalendarEvent → EStateM String Cloud Unit
  | _, [] => pure ()
  | index, event :: events => do
    reply (publishes index)
    modify (publishManaged accountId calendarId event)
    publishEvents accountId calendarId publishes (index + 1) events

/-- The download as a round of the calendar. -/
def CalendarReplies.round (replies : CalendarReplies) (account : CalendarAccount)
    (calendarId : String) : CloudRound :=
  { provider := account.provider
    accountId := account.id
    calendarId
    answer := replies.answer
    fullAnswer := replies.fullAnswer
    published := .ok () }

def clearStored (accountId calendarId : String) (cloud : Cloud) : Cloud :=
  { cloud with store := cloud.store.clearCalendar accountId calendarId }

/-- With a cursor that the provider refuses the calendar is emptied and downloaded anew. -/
def download (account : CalendarAccount) (calendarId : String) (replies : CalendarReplies) :
    EStateM String Cloud SyncBatch := do
  if (replies.round account calendarId).expired then
    reply replies.cleared
    modify (clearStored account.id calendarId)
    reply replies.fullAnswer
  else reply replies.answer

def fetch (account : CalendarAccount) (calendarId : String) (replies : CalendarReplies) :
    EStateM String Cloud SyncBatch := do
  reply replies.cursor
  download account calendarId replies

/-- The batch and its cursor in one transaction. -/
def storeBatch (chrono : Chrono) (accountId calendarId : String) (batch : SyncBatch) :
    EStateM String Cloud Unit := fun cloud =>
  match cloud.store.applySync chrono accountId calendarId batch with
  | .ok store =>
    .ok () { cloud with store, log := cloud.log ++ [.stored accountId calendarId batch.events] }
  | .error error => .error error cloud

def syncCalendar (chrono : Chrono) (account : CalendarAccount) (calendarId : String)
    (replies : CalendarReplies) : EStateM String Cloud Unit := do
  let batch ← fetch account calendarId replies
  publishEvents account.id calendarId replies.publishes 0 batch.events
  reply replies.stored
  storeBatch chrono account.id calendarId batch

/-- The calendars of an account in order. -/
def syncCalendars (chrono : Chrono) (account : CalendarAccount)
    (calendars : String → CalendarReplies) : List String → EStateM String Cloud Unit
  | [] => pure ()
  | calendarId :: rest => do
    syncCalendar chrono account calendarId (calendars calendarId)
    syncCalendars chrono account calendars rest

/-- A refresh token that the provider rotated is kept. -/
def saveRotated (refreshToken : String) (saved : Except String Unit) :
    Option String → EStateM String Cloud Unit
  | none => pure ()
  | some token => if token = refreshToken then pure () else reply saved

/-- A valid account with its secret gets new tokens. -/
def openAccount (account : CalendarAccount) (replies : AccountReplies) :
    EStateM String Cloud Unit := do
  reply (validateAccount account)
  let refreshToken ← reply replies.refreshToken
  let rotated ← reply replies.tokens
  saveRotated refreshToken replies.saved rotated

def syncAccounts (chrono : Chrono) :
    List (CalendarAccount × AccountReplies) → EStateM String Cloud Unit
  | [] => pure ()
  | (account, replies) :: rest => do
    openAccount account replies
    syncCalendars chrono account replies.calendars (selectedCalendarIds account)
    syncAccounts chrono rest

/-- The enabled accounts of the provider. -/
def CloudCall.accounts (call : CloudCall) (document : List (CalendarAccount × AccountReplies)) :
    List (CalendarAccount × AccountReplies) :=
  document.filter fun entry => entry.1.enabled && decide (entry.1.provider = call.provider)

def runCloudCalendar (chrono : Chrono) (call : CloudCall) : EStateM String Cloud ℕ := do
  if !call.networkAllowed then throw "calendar provider network access has not been granted"
  let document ← reply call.document
  reply call.clients
  syncAccounts chrono (call.accounts document)
  let cloud ← get
  pure cloud.delivered

/-- The store and the log after a call, also after one that failed. -/
def outcome (chrono : Chrono) (store : CalendarStore) (call : CloudCall) : Cloud :=
  match runCloudCalendar chrono call ⟨store, [], 0⟩ with
  | .ok _ cloud => cloud
  | .error _ cloud => cloud

/-- The logs of calls one after another, and the store after them. -/
def cloudHistory (chrono : Chrono) :
    CalendarStore → List CloudCall → List CloudEvent × CalendarStore
  | store, [] => ([], store)
  | store, call :: calls =>
    let after := outcome chrono store call
    let rest := cloudHistory chrono after.store calls
    (after.log ++ rest.1, rest.2)

/-! ### A calendar of a call and its own steps -/

structure CloudItem where
  account : CalendarAccount
  replies : AccountReplies
  calendarId : String

namespace CloudItem

variable (item : CloudItem) (chrono : Chrono)

def calendar : CalendarReplies := item.replies.calendars item.calendarId

/-- The steps of its account succeed. -/
def opens : Bool :=
  match validateAccount item.account, item.replies.refreshToken, item.replies.tokens with
  | .ok (), .ok _, .ok none => true
  | .ok (), .ok refreshToken, .ok (some token) =>
    decide (token = refreshToken) || item.replies.saved.toBool
  | _, _, _ => false

/-- What is downloaded for it, if the steps up to there succeed. -/
def downloaded : Option SyncBatch :=
  match item.calendar.cursor with
  | .error _ => none
  | .ok () =>
    if (item.calendar.round item.account item.calendarId).expired then
      match item.calendar.cleared with
      | .error _ => none
      | .ok () => item.calendar.fullAnswer.toOption
    else item.calendar.answer.toOption

/-- Every event of a batch is published. -/
def publishesAll (batch : SyncBatch) : Bool :=
  (List.range batch.events.length).all fun index => (item.calendar.publishes index).toBool

/-- A batch can be written: its events have times, and the write succeeds. -/
def storesAll (batch : SyncBatch) : Bool :=
  item.calendar.stored.toBool && batch.events.all fun event =>
    (parseTime chrono event.startTime).toBool && (parseTime chrono event.endTime).toBool

def succeeds : Bool :=
  item.opens && item.downloaded.any fun batch =>
    item.publishesAll batch && item.storesAll chrono batch

/-- Once the first event of the calendar is published no step of it fails. -/
def KeepsEvents : Prop :=
  item.opens = true → ∀ batch ∈ item.downloaded, batch.events ≠ [] →
    (item.calendar.publishes 0).toBool = true → item.succeeds chrono = true

instance : Decidable (item.KeepsEvents chrono) :=
  inferInstanceAs (Decidable (_ = true → ∀ batch ∈ item.downloaded, _))

end CloudItem

/-- The calendars of the accounts, in the order of the loops. -/
def cloudItems (accounts : List (CalendarAccount × AccountReplies)) : List CloudItem :=
  accounts.flatMap fun entry => (selectedCalendarIds entry.1).map fun calendarId =>
    ⟨entry.1, entry.2, calendarId⟩

/-- What a call goes through if it gets to the accounts. -/
def CloudCall.work (call : CloudCall) : List CloudItem :=
  match call.networkAllowed, call.document, call.clients with
  | true, .ok document, .ok () => cloudItems (call.accounts document)
  | _, _, _ => []

/-- The calendars that fail come last, and none fails after its first event is published. -/
def KeepsCalendars (chrono : Chrono) (call : CloudCall) : Prop :=
  (call.work.Pairwise fun before after =>
    after.succeeds chrono = true → before.succeeds chrono = true) ∧
      ∀ item ∈ call.work, item.KeepsEvents chrono

instance (chrono : Chrono) (call : CloudCall) : Decidable (KeepsCalendars chrono call) :=
  inferInstanceAs (Decidable (_ ∧ _))

/-- The events of a calendar that were published. -/
def publishedOf (accountId calendarId : String) (log : List CloudEvent) : List CalendarEvent :=
  log.filterMap fun
    | .published account calendar event =>
      if account = accountId ∧ calendar = calendarId then some event else none
    | .stored .. => none

/-- The events of a calendar in the batches that were stored. -/
def storedOf (accountId calendarId : String) (log : List CloudEvent) : List CalendarEvent :=
  log.flatMap fun
    | .published .. => []
    | .stored account calendar events =>
      if account = accountId ∧ calendar = calendarId then events else []

end FocalDesk.Calendar
