import FocalDesk.Integer
import FocalDesk.Text

/-! The notifications of the desktop: those on screen, those in the history, and the events that
their senders get. -/
namespace FocalDesk.Notifications

def maxHistoryNotifications : ℕ := 100

def maxActions : ℕ := 16

def u32Max : ℕ := 4294967295

def u64Max : ℕ := 18446744073709551615

inductive NotificationUrgency where
  | low
  | normal
  | critical
deriving DecidableEq

structure NotificationAction where
  key : String
  label : String
deriving DecidableEq

/-- Instants and durations are in nanoseconds. -/
structure Notification where
  id : ℕ
  title : String
  body : String
  createdAt : ℤ
  timeout : Option ℕ
  unread : Bool
  appName : String
  desktopEntry : Option String
  appIcon : Option String
  category : Option String
  urgency : NotificationUrgency
  actions : List NotificationAction
  transient : Bool
  resident : Bool
deriving DecidableEq

/-- `duration_since` is zero for an instant that is still to come. -/
def Notification.isExpired (notification : Notification) (now : ℤ) : Bool :=
  notification.timeout.any fun timeout => timeout ≤ (now - notification.createdAt).toNat

structure NotificationDetails where
  appName : String := ""
  desktopEntry : Option String := none
  appIcon : Option String := none
  category : Option String := none
  urgency : NotificationUrgency := .normal
  actions : List NotificationAction := []
  transient : Bool := false
  resident : Bool := false

inductive NotificationEvent where
  | closed (id reason : ℕ)
  | actionInvoked (id : ℕ) (actionKey : String)
deriving DecidableEq

structure PersistedNotification where
  id : ℕ
  title : String
  body : String
  ageMs : ℕ
  timeoutMs : Option ℕ
  unread : Bool
  appName : String
  desktopEntry : Option String
  appIcon : Option String
  category : Option String
  urgency : NotificationUrgency

/-! Texts. -/

def isControl (c : Char) : Bool := c.toNat < 32 || (127 ≤ c.toNat && c.toNat < 160)

/-- The characters outside of tags, up to a limit. -/
def plainChars (limit : ℕ) : Bool → ℕ → List Char → List Char
  | _, _, [] => []
  | inTag, written, c :: cs =>
    let tag := if c = '<' then true else if c = '>' then false else inTag
    let keeps := c ≠ '<' && !inTag && (c = '\n' || c = '\t' || !isControl c)
    let written := if keeps then written + 1 else written
    (if keeps then [c] else []) ++ if limit ≤ written then [] else plainChars limit tag written cs

def sanitizeText (value : String) (limit : ℕ) : String :=
  let plain := String.ofList (plainChars limit false 0 value.toList)
  let plain := replaceText plain "&lt;" "<"
  let plain := replaceText plain "&gt;" ">"
  let plain := replaceText plain "&quot;" "\""
  let plain := replaceText plain "&apos;" "'"
  replaceText plain "&amp;" "&"

def sanitizeIdentifier (value : String) (limit : ℕ) : String :=
  String.ofList ((value.toList.filter fun c => !isControl c).take limit)

def sanitizeAction (action : NotificationAction) : Option NotificationAction :=
  let key := sanitizeIdentifier action.key 128
  let label := sanitizeText action.label 256
  if key ≠ "" ∧ label ≠ "" then some ⟨key, label⟩ else none

/-! The manager. -/

structure NotificationManager where
  queue : List Notification
  history : List Notification
  nextId : ℕ
  doNotDisturb : Bool
  historyLimit : ℕ
  events : List NotificationEvent

/-- The id tried next, and what comes after it. -/
def candidateId (nextId : ℕ) : ℕ := max 1 (min nextId u32Max)

def followingId (candidate : ℕ) : ℕ := if candidate = u32Max then 1 else candidate + 1

/-- The first id that is not taken, of so many that are tried. -/
def findId (taken : List ℕ) : ℕ → ℕ → ℕ × ℕ
  | 0, nextId => (nextId, 1)
  | tries + 1, nextId =>
    if taken.contains (candidateId nextId) then
      findId taken tries (followingId (candidateId nextId))
    else (followingId (candidateId nextId), candidateId nextId)

/-- Drops the oldest entries over the limit. -/
def trimHistory (limit : ℕ) (history : List Notification) : List Notification :=
  history.drop (history.length - limit)

def closedEvent (notification : Notification) (reason : ℕ) : NotificationEvent :=
  .closed (min notification.id u32Max) reason

namespace NotificationManager

def new : NotificationManager where
  queue := []
  history := []
  nextId := 1
  doNotDisturb := false
  historyLimit := maxHistoryNotifications
  events := []

variable (manager : NotificationManager)

def setDoNotDisturb (enabled : Bool) : NotificationManager :=
  { manager with doNotDisturb := enabled }

/-- The ids that are in use. -/
def ids : List ℕ := (manager.queue ++ manager.history).map Notification.id

def allocateId : NotificationManager × ℕ :=
  let found := findId manager.ids u32Max manager.nextId
  ({ manager with nextId := found.1 }, found.2)

def takeActiveNotification (id : ℕ) : NotificationManager × Option Notification :=
  ({ manager with queue := manager.queue.eraseP fun notification => notification.id = id },
    manager.queue.find? fun notification => notification.id = id)

def takeHistoricalNotification (id : ℕ) : NotificationManager × Option Notification :=
  ({ manager with history := manager.history.eraseP fun notification => notification.id = id },
    manager.history.find? fun notification => notification.id = id)

def pushStandard (now : ℤ) (replacesId : ℕ) (title body : String) (timeout : Option ℕ)
    (details : NotificationDetails) : NotificationManager × ℕ :=
  let (manager, replaced) :=
    if replacesId ≠ 0 then manager.takeActiveNotification replacesId else (manager, none)
  let (manager, id) := match replaced with
    | some notification => (manager, notification.id)
    | none => manager.allocateId
  let notification : Notification :=
    { id
      title := sanitizeText title 256
      body := sanitizeText body 4096
      createdAt := now
      timeout
      unread := true
      appName := sanitizeText details.appName 256
      desktopEntry := details.desktopEntry.map (sanitizeIdentifier · 256)
      appIcon := details.appIcon.map (sanitizeText · 1024)
      category := details.category.map (sanitizeIdentifier · 128)
      urgency := details.urgency
      actions := (details.actions.take maxActions).filterMap sanitizeAction
      transient := details.transient
      resident := details.resident }
  ({ manager with queue := manager.queue ++ [notification] }, id)

def close (id reason : ℕ) : NotificationManager × Bool :=
  match manager.takeActiveNotification id with
  | (manager, some _) =>
    ({ manager with events := manager.events ++ [.closed (min id u32Max) reason] }, true)
  | (manager, none) =>
    let (manager, taken) := manager.takeHistoricalNotification id
    (manager, taken.isSome)

def dismiss (id : ℕ) : NotificationManager × Bool := manager.close id 2

def closeRequested (id : ℕ) : NotificationManager × Bool := manager.close id 3

def invokeAction (id : ℕ) (actionKey : String) : NotificationManager × Bool :=
  match manager.queue.find? fun notification => notification.id = id with
  | none => (manager, false)
  | some notification =>
    match notification.actions.find? fun action => action.key = actionKey with
    | none => (manager, false)
    | some action =>
      let manager := { manager with
        events := manager.events ++ [.actionInvoked (min id u32Max) action.key] }
      (if notification.resident then manager else (manager.close id 2).1, true)

def drainEvents : NotificationManager × List NotificationEvent :=
  ({ manager with events := [] }, manager.events)

def expire (now : ℤ) : NotificationManager × Bool :=
  let expired := manager.queue.filter fun notification => notification.isExpired now
  let queue := manager.queue.filter fun notification => !notification.isExpired now
  let kept := (expired.filter fun notification => !notification.transient).map
    fun notification => { notification with actions := [] }
  ({ manager with
      queue
      events := manager.events ++ expired.map (closedEvent · 1)
      history := trimHistory manager.historyLimit (manager.history ++ kept) },
    queue.length ≠ manager.queue.length)

def clearHistory : NotificationManager :=
  { manager with
    queue := []
    events := manager.events ++ manager.queue.map (closedEvent · 2)
    history := [] }

def markAllRead : NotificationManager :=
  { manager with
    queue := manager.queue.map fun notification => { notification with unread := false }
    history := manager.history.map fun notification => { notification with unread := false } }

def setHistoryLimit (limit : ℕ) : NotificationManager :=
  let historyLimit := max 25 (min limit maxHistoryNotifications)
  { manager with
    historyLimit
    history := trimHistory historyLimit manager.history }

/-- The instant of an entry that is so old can be represented. -/
def restored (now : ℤ) (entry : PersistedNotification) : Notification where
  id := entry.id
  title := entry.title
  body := entry.body
  createdAt := now - entry.ageMs * 1000000
  timeout := entry.timeoutMs.map (· * 1000000)
  unread := entry.unread
  appName := entry.appName
  desktopEntry := entry.desktopEntry
  appIcon := entry.appIcon
  category := entry.category
  urgency := entry.urgency
  actions := []
  transient := false
  resident := false

def loadEntry (now : ℤ) (manager : NotificationManager) (entry : PersistedNotification) :
    NotificationManager :=
  { manager with
    nextId := max manager.nextId (saturatingAdd entry.id 1)
    history := manager.history ++ [restored now entry] }

/-- The last entries of the file, when there is one that can be read. -/
def loadHistory (now : ℤ) (file : Option (List PersistedNotification)) : NotificationManager :=
  match file with
  | none => manager
  | some entries =>
    (entries.drop (entries.length - maxHistoryNotifications)).foldl (loadEntry now) manager

def persisted (now : ℤ) (entry : Notification) : PersistedNotification where
  id := entry.id
  title := entry.title
  body := entry.body
  ageMs := min ((now - entry.createdAt).toNat / 1000000) u64Max
  timeoutMs := entry.timeout.map fun timeout => min (timeout / 1000000) u64Max
  unread := entry.unread
  appName := entry.appName
  desktopEntry := entry.desktopEntry
  appIcon := entry.appIcon
  category := entry.category
  urgency := entry.urgency

/-- What is written to the file. -/
def saveHistory (now : ℤ) : List PersistedNotification :=
  (manager.history.filter fun entry => !entry.transient).map (persisted now)

end NotificationManager

end FocalDesk.Notifications
