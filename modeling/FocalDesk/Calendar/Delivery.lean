import FocalDesk.Calendar.Reminders

/-! Reminders are notified at most once while the calendars are filled again. -/
namespace FocalDesk.Calendar
open Library List

def reminderGraceSeconds : ℤ := 15 * 60

/-! The local calendar. -/

structure IcsEvent where
  id : String
  title : String
  start : String
  «end» : String
  organizer : String

/-- What the date library reads of an ICS date and of an ICS time in UTC, as RFC 3339 texts. -/
structure IcsChrono where
  date : String → Except String String
  time : String → Except String String

def normalizeIcsTime (ics : IcsChrono) (value : String) : Except String String :=
  let value := trim value
  if byteLen value = 8 then ics.date value
  else if value.toList.getLast? = some 'Z' then ics.time value
  else .error "floating and TZID-based ICS timestamps are not yet supported"

def normalizeIcsEvent (ics : IcsChrono) (event : IcsEvent) : Except String CalendarEvent := do
  let startTime ← normalizeIcsTime ics event.start
  let endTime ← normalizeIcsTime ics event.end
  .ok {
    accountId := "local-calendar"
    provider := .local
    calendarId := "local"
    eventId := event.id
    title := event.title
    startTime
    endTime
    organizer := event.organizer
    allDay := byteLen event.start = 8
    cancelled := false }

/-- What is left of the store when a batch is refused. -/
def CalendarStore.applied (store : CalendarStore) (chrono : Chrono) (accountId calendarId : String)
    (batch : SyncBatch) : CalendarStore :=
  match store.applySync chrono accountId calendarId batch with
  | .ok next => next
  | .error _ => store

/-- The file is a complete snapshot: what is stored is removed first. -/
def runCalendarAdapter (chrono : Chrono) (ics : IcsChrono) (store : CalendarStore)
    (events : List IcsEvent) : CalendarStore :=
  let normalized := events.filterMap fun event => (normalizeIcsEvent ics event).toOption
  (store.clearCalendar "local-calendar" "local").applied chrono "local-calendar" "local"
    ⟨normalized, [], none⟩

/-! The calendars of the providers. -/

/-- A round for one calendar: what the provider answers, what it answers without the cursor, and
whether the events were published. -/
structure CloudRound where
  provider : CalendarProvider
  accountId : String
  calendarId : String
  answer : Except String SyncBatch
  fullAnswer : Except String SyncBatch
  published : Except String Unit

/-- The provider refused the cursor. -/
def CloudRound.expired (round : CloudRound) : Bool :=
  match round.provider, round.answer with
  | .google, .error error => containsText error "google_sync_cursor_expired"
  | _, _ => false

def CloudRound.batch (round : CloudRound) : Except String SyncBatch :=
  if round.expired then round.fullAnswer else round.answer

def CloudRound.sync (chrono : Chrono) (store : CalendarStore) (round : CloudRound) :
    CalendarStore :=
  let store := if round.expired then store.clearCalendar round.accountId round.calendarId else store
  match round.batch, round.published with
  | .ok batch, .ok () => store.applied chrono round.accountId round.calendarId batch
  | _, _ => store

/-! The notifications. -/

structure Notify where
  title : String
  body : String

/-- The text without the letter at its end. -/
def trimEnd (c : Char) (text : List Char) : List Char :=
  (text.reverse.dropWhile (· = c)).reverse

def DueReminder.notify (reminder : DueReminder) : Notify :=
  let starts := reminder.event.startTime.toList.map fun c => if c = 'T' then ' ' else c
  { title := "Upcoming: " ++ reminder.event.title
    body := "Starts at " ++ String.ofList (trimEnd 'Z' starts) }

/-- The store with the reminders that were notified and the time of the last dispatch. -/
structure Dispatcher where
  store : CalendarStore
  notified : List (DueReminder × Notify)
  last : Option ℤ

inductive Task where
  | pollLocal (events : List IcsEvent)
  | syncCloud (round : CloudRound)
  | dispatch (now : ℤ) (visited : List EventRow)

namespace Dispatcher

section
variable (chrono : Chrono) (ics : IcsChrono) (minutes : ReminderMinutes)

/-- The clock does not go back, and a dispatch visits the rows in some order. -/
def step (s : Dispatcher) : Task → Option Dispatcher
  | .pollLocal events => some { s with store := runCalendarAdapter chrono ics s.store events }
  | .syncCloud round => some { s with store := round.sync chrono s.store }
  | .dispatch now visited =>
    if (∀ last ∈ s.last, last ≤ now) ∧ visited.Perm s.store.rows then
      match s.store.claimDueReminders chrono visited now reminderGraceSeconds minutes with
      | .error _ => some { s with last := some now }
      | .ok (store, due) => some {
          store
          notified := s.notified ++ due.map fun reminder => (reminder, reminder.notify)
          last := some now }
    else none

/-- The event and the start that a reminder is for. -/
def slotOf (reminder : DueReminder) : EventKey × ℤ :=
  (reminder.event.key,
    reminder.reminderAtUnix + (minutesOf minutes reminder.event.accountId : ℤ) * 60)

def slots (s : Dispatcher) : List (EventKey × ℤ) :=
  s.notified.map fun entry => slotOf minutes entry.1

def remindsAt (slot : EventKey × ℤ) : ℤ := slot.2 - (minutesOf minutes slot.1.accountId : ℤ) * 60

/-- The reminder is out of its grace at the last dispatch. -/
def past (s : Dispatcher) (slot : EventKey × ℤ) : Bool :=
  s.last.any fun last => remindsAt minutes slot ≤ last - reminderGraceSeconds

/-- The calendar that a task clears. -/
def cleared : Task → Option (String × String)
  | .pollLocal _ => some ("local-calendar", "local")
  | .syncCloud round => if round.expired then some (round.accountId, round.calendarId) else none
  | .dispatch _ _ => none

/-- A calendar is cleared when the reminders that were notified of it are out of their grace. -/
def graceOver (s : Dispatcher) (task : Task) : Bool :=
  (cleared task).all fun calendar => (s.slots minutes).all fun slot =>
    decide ((slot.1.accountId, slot.1.calendarId) ≠ calendar) || s.past minutes slot

end

variable {chrono : Chrono} {ics : IcsChrono} {minutes : ReminderMinutes} {s t : Dispatcher}
  {task : Task} {store : CalendarStore}

/-- What was notified is on record, or out of its grace. -/
structure Once (chrono : Chrono) (minutes : ReminderMinutes) (s : Dispatcher) : Prop where
  sound : s.store.Sound chrono
  once : (s.slots minutes).Nodup
  recorded : ∀ slot ∈ s.slots minutes, s.past minutes slot = true ∨
    ∃ entry ∈ s.store.delivered, entry.1 = slot ∧ remindsAt minutes slot ≤ entry.2

theorem applied_cases (store : CalendarStore) (chrono : Chrono) (acc cal : String)
    (batch : SyncBatch) : (store.applied chrono acc cal batch).delivered =
        store.delivered ∧
      (store.Sound chrono → (store.applied chrono acc cal batch).Sound chrono) := by
  unfold CalendarStore.applied
  cases ha : store.applySync chrono acc cal batch with
  | error error => exact ⟨rfl, id⟩
  | ok next =>
    refine ⟨?_, fun hs => hs.applySync ha⟩
    obtain ⟨evs, -, heq⟩ := bind_eq_ok.mp ha
    cases heq
    rfl

/-- A store that was filled again keeps the records of the other calendars. -/
theorem Once.refill (h : Once chrono minutes s) (hso : store.Sound chrono)
    (hk : ∀ e ∈ s.store.delivered, e.1 ∈ s.slots minutes →
      s.past minutes e.1 = false → e ∈ store.delivered) :
    Once chrono minutes { s with store } := by
  refine ⟨hso, h.once, fun slot hs => ?_⟩
  obtain hp | ⟨e, he, rfl, hat⟩ := h.recorded slot hs
  · exact .inl hp
  · by_cases hp : s.past minutes e.1
    · exact .inl hp
    · exact .inr ⟨e, hk e he hs (Bool.not_eq_true _ ▸ hp), rfl, hat⟩

/-- What a clear leaves. -/
theorem kept_of_graceOver {acc cal : String}
    (hc : cleared task = some (acc, cal))
    (hov : s.graceOver minutes task) {e : (EventKey × ℤ) × ℤ}
    (he : e ∈ s.store.delivered) (hs : e.1 ∈ s.slots minutes)
    (hp : s.past minutes e.1 = false) :
    e ∈ (s.store.clearCalendar acc cal).delivered := by
  rw [graceOver, hc, Option.all_some, all_eq_true] at hov
  have ho := hov e.1 hs
  rw [hp, Bool.or_false, decide_eq_true_eq] at ho
  refine mem_filter.mpr ⟨he, decide_eq_true fun hb => ho ?_⟩
  rw [hb.1, hb.2]

theorem once_pollLocal (h : Once chrono minutes s) {evs : List IcsEvent}
    (ho : s.graceOver minutes (.pollLocal evs)) :
    Once chrono minutes { s with store := runCalendarAdapter chrono ics s.store evs } := by
  obtain ⟨hd, hs⟩ := applied_cases
    (s.store.clearCalendar "local-calendar" "local") chrono "local-calendar" "local"
    ⟨evs.filterMap fun ev => (normalizeIcsEvent ics ev).toOption, [], none⟩
  refine h.refill (hs (h.sound.clearCalendar _ _)) fun e he hsl hp => ?_
  unfold runCalendarAdapter
  rw [hd]
  exact kept_of_graceOver rfl ho he hsl hp

theorem once_syncCloud (h : Once chrono minutes s) {round : CloudRound}
    (ho : s.graceOver minutes (.syncCloud round)) :
    Once chrono minutes { s with store := round.sync chrono s.store } := by
  have hp : Once chrono minutes { s with
      store := if round.expired then s.store.clearCalendar round.accountId round.calendarId
        else s.store } := by
    by_cases hex : round.expired
    · rw [if_pos hex]
      refine h.refill (h.sound.clearCalendar _ _) fun e he hsl hpa => ?_
      exact kept_of_graceOver (by rw [cleared, if_pos hex]) ho he hsl hpa
    · rw [if_neg hex]
      exact h
  unfold CloudRound.sync
  generalize (if round.expired then s.store.clearCalendar round.accountId round.calendarId
    else s.store) = cleared at hp
  split
  · rename_i batch hb hpu
    obtain ⟨hd, hs⟩ := applied_cases cleared chrono round.accountId round.calendarId batch
    refine hp.refill (hs hp.sound) fun e he _ _ => ?_
    rw [hd]
    exact he
  · exact hp

theorem remindsAt_slotOf (minutes : ReminderMinutes) (rem : DueReminder) :
    remindsAt minutes (slotOf minutes rem) = rem.reminderAtUnix := by
  simp only [remindsAt, slotOf, CalendarEvent.key]
  omega

theorem past_mono {slot : EventKey × ℤ} {now : ℤ} (hl : ∀ last ∈ s.last, last ≤ now)
    (h : s.past minutes slot) : remindsAt minutes slot ≤ now - reminderGraceSeconds := by
  unfold past at h
  cases hs : s.last with
  | none =>
    rw [hs] at h
    cases h
  | some last =>
    have hle := hl last hs
    rw [hs] at h
    have hat := of_decide_eq_true h
    omega

theorem once_dispatch (h : Once chrono minutes s) {now : ℤ} {visited : List EventRow}
    (hl : ∀ last ∈ s.last, last ≤ now) (hv : visited.Perm s.store.rows)
    {added : List ((EventKey × ℤ) × ℤ)}
    (ha : Inserted now ((dueReminders s.store visited now reminderGraceSeconds minutes).map
      (slotOf minutes)) s.store.delivered added) :
    Once chrono minutes {
      store := { s.store with delivered := added.filter fun e => ¬ e.2 < now - 90 * 86400 }
      notified := s.notified ++ (dueReminders s.store visited now reminderGraceSeconds
        minutes).map fun rem => (rem, rem.notify)
      last := some now } := by
  have hsl : ∀ store last, ({ store, notified := s.notified ++ (dueReminders s.store visited now
      reminderGraceSeconds minutes).map fun rem => (rem, rem.notify), last } :
        Dispatcher).slots minutes = s.slots minutes ++ (dueReminders s.store visited now
          reminderGraceSeconds minutes).map (slotOf minutes) := by
    intro store last
    simp [slots, Function.comp_def]
  have hd : ∀ rem ∈ dueReminders s.store visited now reminderGraceSeconds minutes,
      (∀ e ∈ s.store.delivered, e.1 ≠ slotOf minutes rem) ∧
        rem.reminderAtUnix ≤ now ∧ now - reminderGraceSeconds < rem.reminderAtUnix := by
    intro rem hr
    obtain ⟨row, -, rfl, hc, hi⟩ := mem_dueReminders hr
    obtain ⟨hat, hg, -⟩ := isDue_iff.mp hi
    refine ⟨fun e hentry hsa => ?_, hat, hg⟩
    have hno := (isCandidate_iff.mp hc).2.2.2
    have hy : s.store.isDelivered row := by
      refine any_eq_true.mpr ⟨e, hentry, decide_eq_true ?_⟩
      rw [hsa]
      simp [slotOf, reminderAt]
    rw [hy] at hno
    cases hno
  refine ⟨h.sound.sublist (List.Sublist.refl _), ?_, fun slot hs => ?_⟩
  · rw [hsl]
    refine nodup_append.mpr ⟨h.once, ?_, fun slot hs other ho heq => ?_⟩
    · have hn : (visited.map fun row => row.event.key).Nodup :=
        (hv.map _).nodup_iff.mpr h.sound.nodup_keys
      refine List.Nodup.of_map Prod.fst ?_
      rw [map_map]
      exact nodup_dueReminders hn
    · subst heq
      obtain ⟨rem, hr, rfl⟩ := mem_map.mp ho
      obtain ⟨hne, -, hg⟩ := hd rem hr
      obtain hp | ⟨e, hentry, hsa, -⟩ := h.recorded _ hs
      · have hat := past_mono hl hp
        rw [remindsAt_slotOf] at hat
        omega
      · exact hne e hentry hsa
  · rw [hsl] at hs
    have hk : ∀ e ∈ added, remindsAt minutes e.1 ≤ e.2 →
        remindsAt minutes e.1 ≤ now - reminderGraceSeconds ∨
          e ∈ added.filter fun e => ¬ e.2 < now - 90 * 86400 := by
      intro e hentry hat
      by_cases hold : e.2 < now - 90 * 86400
      · refine .inl ?_
        simp only [reminderGraceSeconds]
        omega
      · exact .inr (mem_filter.mpr ⟨hentry, decide_eq_true hold⟩)
    have hre : remindsAt minutes slot ≤ now - reminderGraceSeconds ∨
        ∃ e ∈ added, e.1 = slot ∧ remindsAt minutes slot ≤ e.2 := by
      obtain hs | hs := mem_append.mp hs
      · obtain hp | ⟨e, hentry, hsa, hat⟩ := h.recorded slot hs
        · exact .inl (past_mono hl hp)
        · exact .inr ⟨e, ha.old e hentry, hsa, hat⟩
      · obtain ⟨rem, hr, rfl⟩ := mem_map.mp hs
        obtain ⟨hne, hat, -⟩ := hd rem hr
        obtain ⟨e, hentry, hsa⟩ | hentry := ha.recorded _ hs
        · exact absurd hsa (hne e hentry)
        · refine .inr ⟨_, hentry, rfl, ?_⟩
          rw [remindsAt_slotOf]
          exact hat
    obtain hp | ⟨e, hentry, rfl, hat⟩ := hre
    · exact .inl (decide_eq_true hp)
    · exact (hk e hentry hat).imp (fun hp => decide_eq_true hp)
        fun hke => ⟨e, hke, rfl, hat⟩

theorem once_step (hs : step chrono ics minutes s task = some t) (ho : s.graceOver minutes task)
    (h : Once chrono minutes s) :
    Once chrono minutes t := by
  cases task with
  | pollLocal evs =>
    cases hs
    exact once_pollLocal h ho
  | syncCloud round =>
    cases hs
    exact once_syncCloud h ho
  | dispatch now visited =>
    simp only [step] at hs
    split at hs
    · rename_i hg
      obtain ⟨added, hc, ha⟩ := claimDueReminders_spec h.sound hg.2 now reminderGraceSeconds minutes
      rw [hc] at hs
      cases hs
      exact once_dispatch h hg.1 hg.2 ha
    · cases hs

def started (store : CalendarStore) : Dispatcher := ⟨store, [], none⟩

theorem once_started (hs : store.Sound chrono) : Once chrono minutes (started store) :=
  ⟨hs, nodup_nil, fun _ hsl => absurd hsl not_mem_nil⟩

/-- No reminder is notified twice. -/
theorem reminders_notified_once {tasks : List Task} (hsound : store.Sound chrono)
    (hmeets : Meets (step chrono ics minutes) (fun s task => s.graceOver minutes task = true)
      (started store) tasks)
    (hrun : run (step chrono ics minutes) (started store) tasks = some t) :
    (t.slots minutes).Nodup :=
  (run_invariant_of_meets once_step hmeets hrun (once_started hsound)).once

/-! A local meeting ten minutes after the epoch. -/

def meetingIcs : IcsEvent :=
  ⟨"meeting", "Meeting", "19700101T001000Z", "19700101T001000Z", ""⟩

def meetingIcsChrono : IcsChrono where
  date _ := .error "input contains invalid characters"
  time value := if value = meetingIcs.start then .ok "1970-01-01T00:10:00Z"
    else .error "input contains invalid characters"

def localMeeting : EventRow where
  event :=
    { accountId := "local-calendar"
      provider := .local
      calendarId := "local"
      eventId := "meeting"
      title := "Meeting"
      startTime := "1970-01-01T00:10:00Z"
      endTime := "1970-01-01T00:10:00Z"
      organizer := ""
      allDay := false
      cancelled := false }
  startUnix := 600
  endUnix := 600

def pollMeeting : Task := .pollLocal [meetingIcs]

def workRound : CloudRound :=
  ⟨.google, "work", "primary", .ok ⟨[], [], some "next"⟩, .ok ⟨[], [], none⟩, .ok ()⟩

def calmTasks : List Task :=
  [pollMeeting, .dispatch 0 [localMeeting], .syncCloud workRound, .dispatch 900 [localMeeting],
    pollMeeting, .dispatch 901 [localMeeting]]

theorem calm_tasks_notify_once : ∃ t, run (step epochChrono meetingIcsChrono []) (started .empty)
      calmTasks = some t ∧
    t.slots [] = [(localMeeting.event.key, 600)] ∧ (t.slots []).Nodup := by
  have he : (checkedRun (step epochChrono meetingIcsChrono [])
      (fun s task => s.graceOver [] task = true) (started .empty) calmTasks).any
        (fun t => t.slots [] = [(localMeeting.event.key, 600)]) = true := by decide +kernel
  obtain ⟨hm, t, hr, hs⟩ := exists_run_of_checked he
  exact ⟨t, hr, of_decide_eq_true hs, reminders_notified_once CalendarStore.sound_empty hm hr⟩

/-- A poll of the same file between two dispatches has the reminder notified again. -/
theorem meeting_notified_twice :
    ¬ ∀ (events : List IcsEvent) (tasks : List Task) (t : Dispatcher),
      (∀ other, .pollLocal other ∈ tasks → other = events) →
        run (step epochChrono meetingIcsChrono []) (started .empty) tasks = some t →
          (t.slots []).Nodup := by
  intro h
  have he : (run (step epochChrono meetingIcsChrono []) (started .empty)
      [pollMeeting, .dispatch 0 [localMeeting], pollMeeting, .dispatch 15 [localMeeting]]).any
        (fun t => !decide (t.slots []).Nodup) = true := by decide +kernel
  obtain ⟨t, hr, ht⟩ := exists_run_of_any he
  have hon := h [meetingIcs] _ t (fun other ho => ?_) hr
  · simp [hon] at ht
  · simpa [pollMeeting] using ho

end Dispatcher

end FocalDesk.Calendar
