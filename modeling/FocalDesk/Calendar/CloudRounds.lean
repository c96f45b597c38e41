import FocalDesk.Calendar.CloudRun

/-! When the rounds over cloud calendars isolate accounts and publish every event once. -/
namespace FocalDesk.Calendar
open Library List Nat

variable {chrono : Chrono} {s t : Cloud} {item : CloudItem} {items more : List CloudItem}
  {batch : SyncBatch}

theorem reply_ok {α : Type} {res : Except String α} (h : res.toBool) :
    ∃ v, res = .ok v ∧ reply res s = .ok v s := by
  obtain ⟨v, rfl⟩ := exists_of_toBool h
  exact ⟨v, rfl, rfl⟩

theorem reply_error {α : Type} {res : Except String α} (h : res.toBool = false) :
    ∃ error, reply res s = .error error s := by
  cases res with
  | ok => cases h
  | error error => exact ⟨error, rfl⟩

theorem bind_ok {α β : Type} {m : EStateM String Cloud α} {f : α → EStateM String Cloud β} {a : α}
    (h : m s = .ok a t) : (m >>= f) s = f a t := by
  show EStateM.bind m f s = _
  unfold EStateM.bind
  rw [h]

theorem bind_error {α β : Type} {m : EStateM String Cloud α} {f : α → EStateM String Cloud β}
    {err : String} (h : m s = .error err t) : (m >>= f) s = .error err t := by
  show EStateM.bind m f s = _
  unfold EStateM.bind
  rw [h]

/-! ### The steps for one calendar -/

theorem toBool_upsertEvents (evs : List CalendarEvent) (rows : List (EventKey × EventRow)) :
    (evs.foldlM (upsertEvent chrono) rows).toBool = evs.all fun ev =>
      (parseTime chrono ev.startTime).toBool && (parseTime chrono ev.endTime).toBool := by
  induction evs generalizing rows with
  | nil => rfl
  | cons ev evs ih =>
    rw [foldlM_cons, all_cons]
    unfold upsertEvent
    cases parseTime chrono ev.startTime with
    | error => rfl
    | ok startUnix =>
      cases parseTime chrono ev.endTime with
      | error => rfl
      | ok endUnix => exact ih _

theorem toBool_applySync (store : CalendarStore) (aid cal : String) :
    (store.applySync chrono aid cal batch).toBool = batch.events.all fun ev =>
      (parseTime chrono ev.startTime).toBool && (parseTime chrono ev.endTime).toBool := by
  rw [← toBool_upsertEvents batch.events store.events]
  unfold CalendarStore.applySync
  cases batch.events.foldlM (upsertEvent chrono) store.events <;> rfl

theorem openAccount_eq (item : CloudItem) (s : Cloud) :
    (item.opens ∧ openAccount item.account item.replies s = .ok () s) ∨
    (item.opens = false ∧ ∃ error, openAccount item.account item.replies s = .error error s) := by
  obtain ⟨acct, reps, cal⟩ := item
  obtain ⟨refreshToken, toks, saved, calendars⟩ := reps
  unfold CloudItem.opens openAccount
  dsimp only
  cases validateAccount acct with
  | error error => exact .inr ⟨rfl, error, rfl⟩
  | ok =>
    cases refreshToken with
    | error error => exact .inr ⟨rfl, error, rfl⟩
    | ok refreshToken =>
      cases toks with
      | error error => exact .inr ⟨rfl, error, rfl⟩
      | ok rotated =>
        cases rotated with
        | none => exact .inl ⟨rfl, rfl⟩
        | some tok =>
          show _ ∧ (if tok = refreshToken then pure () else reply saved :
              EStateM String Cloud Unit) s = _ ∨ _ ∧ ∃ error, (if tok = refreshToken then pure ()
            else reply saved : EStateM String Cloud Unit) s = .error error s
          by_cases hs : tok = refreshToken
          · rw [if_pos hs]
            exact .inl ⟨by simp [hs], rfl⟩
          · rw [if_neg hs]
            cases saved with
            | ok => exact .inl ⟨by simp [Except.toBool], rfl⟩
            | error error => exact .inr ⟨by simp [hs, Except.toBool], error, rfl⟩

/-- A calendar is fetched before anything of it is published. -/
theorem fetch_eq (item : CloudItem) (s : Cloud) :
    (∃ batch t, item.downloaded = some batch ∧ t.log = s.log ∧
      fetch item.account item.calendarId item.calendar s = .ok batch t) ∨
    item.downloaded = none ∧ ∃ error t, t.log = s.log ∧
      fetch item.account item.calendarId item.calendar s = .error error t := by
  unfold CloudItem.downloaded
  cases hc : item.calendar.cursor with
  | error error => exact .inr ⟨rfl, error, s, rfl, by rw [fetch, hc]; exact bind_error rfl⟩
  | ok =>
    have hf : fetch item.account item.calendarId item.calendar s =
        download item.account item.calendarId item.calendar s := by
      rw [fetch, hc]
      exact bind_ok rfl
    rw [hf]
    unfold download
    by_cases he : (item.calendar.round item.account item.calendarId).expired
    · dsimp only
      rw [if_pos he, if_pos he]
      cases item.calendar.cleared with
      | error error => exact .inr ⟨rfl, error, s, rfl, rfl⟩
      | ok =>
        cases item.calendar.fullAnswer with
        | error error =>
          exact .inr ⟨rfl, error, clearStored item.account.id item.calendarId s, rfl, rfl⟩
        | ok batch =>
          exact .inl ⟨batch, clearStored item.account.id item.calendarId s, rfl, rfl, rfl⟩
    · dsimp only
      rw [if_neg he, if_neg he]
      cases item.calendar.answer with
      | error error => exact .inr ⟨rfl, error, s, rfl, rfl⟩
      | ok batch => exact .inl ⟨batch, s, rfl, rfl, rfl⟩

/-- The publishes go on as long as none fails. -/
theorem publishEvents_eq (aid cal : String) (publishes : ℕ → Except String Unit)
    (evs : List CalendarEvent) (i : ℕ) (s : Cloud) :
    ((∀ n < evs.length, (publishes (i + n)).toBool) ∧ ∃ t,
      publishEvents aid cal publishes i evs s = .ok () t ∧
        t.log = s.log ++ evs.map (.published aid cal)) ∨
    ∃ err t, publishEvents aid cal publishes i evs s = .error err t ∧
      (∃ n < evs.length, (publishes (i + n)).toBool = false) ∧
        ((publishes i).toBool = false → t.log = s.log) := by
  induction evs generalizing i s with
  | nil => exact .inl ⟨fun n hn => absurd hn (Nat.not_lt_zero n), s, rfl, by simp⟩
  | cons ev evs ih =>
    cases hf : (publishes i).toBool with
    | false =>
      obtain ⟨err, he⟩ := reply_error (s := s) hf
      exact .inr ⟨err, s, bind_error he, ⟨0, zero_lt_succ _, hf⟩, fun _ => rfl⟩
    | true =>
      obtain ⟨_, -, hr⟩ := reply_ok (s := s) hf
      have hre : publishEvents aid cal publishes i (ev :: evs) s =
          publishEvents aid cal publishes (i + 1) evs
            (publishManaged aid cal ev s) := bind_ok hr
      rw [hre]
      rcases ih (i + 1) (publishManaged aid cal ev s) with
        ⟨ha, t, hru, hl⟩ | ⟨err, t, hru, ⟨n, hn, hfa⟩, -⟩
      · refine .inl ⟨fun n hn => ?_, t, hru, ?_⟩
        · cases n with
          | zero => exact hf
          | succ n =>
            have hne := ha n (lt_of_succ_lt_succ hn)
            rwa [Nat.add_right_comm] at hne
        · rw [hl]
          simp [publishManaged]
      · refine .inr ⟨err, t, hru, ⟨n + 1, succ_lt_succ hn, ?_⟩, fun h => by simp at h⟩
        rwa [Nat.add_right_comm] at hfa

namespace CloudItem

/-- What a calendar leaves in the log when all of its steps succeed. -/
def trace (item : CloudItem) : List CloudEvent :=
  match item.downloaded with
  | none => []
  | some batch => batch.events.map (.published item.account.id item.calendarId) ++
      [.stored item.account.id item.calendarId batch.events]

/-- A calendar either goes through all of its steps or fails without a trace. -/
theorem syncCalendar_eq (ho : item.opens) (hk : item.KeepsEvents chrono) :
    (item.succeeds chrono ∧ ∃ t, t.log = s.log ++ item.trace ∧
      syncCalendar chrono item.account item.calendarId item.calendar s = .ok () t) ∨
    item.succeeds chrono = false ∧ ∃ error t, t.log = s.log ∧
      syncCalendar chrono item.account item.calendarId item.calendar s = .error error t := by
  unfold syncCalendar
  rcases fetch_eq item s with
    ⟨batch, fetched, hd, hl, hfe⟩ | ⟨hd, error, t, hl, hfe⟩
  · rw [bind_ok hfe]
    have hs : item.succeeds chrono =
        (item.publishesAll batch && item.storesAll chrono batch) := by
      rw [succeeds, ho, hd]
      rfl
    have ht : item.trace = batch.events.map (.published item.account.id item.calendarId) ++
        [.stored item.account.id item.calendarId batch.events] := by
      rw [trace, hd]
    have hb : item.succeeds chrono = false →
        batch.events = [] ∨ (item.calendar.publishes 0).toBool = false := by
      intro hf
      by_contra hbo
      rw [not_or, Bool.not_eq_false] at hbo
      rw [hk ho batch hd hbo.1 hbo.2] at hf
      cases hf
    rcases publishEvents_eq item.account.id item.calendarId item.calendar.publishes batch.events 0
      fetched with
      ⟨hal, published, hr, hpu⟩ | ⟨error, t, hr, ⟨n, hn, hfa⟩, hfi⟩
    · rw [bind_ok hr]
      have hp : item.publishesAll batch := by
        refine all_eq_true.mpr fun n hn => ?_
        have hon := hal n (mem_range.mp hn)
        rwa [Nat.zero_add] at hon
      rw [hp, Bool.true_and] at hs
      have hsi : item.succeeds chrono = false → published.log = s.log := by
        intro hf
        rcases hb hf with he | hz
        · rw [hpu, he, map_nil, append_nil, hl]
        · cases hev : batch.events with
          | nil => rw [hpu, hev, map_nil, append_nil, hl]
          | cons ev evs =>
            have hon := hal 0 (by rw [hev]; exact zero_lt_succ _)
            rw [Nat.add_zero, hz] at hon
            cases hon
      cases hst : item.calendar.stored.toBool with
      | false =>
        obtain ⟨error, her⟩ := reply_error (s := published) hst
        have hf : item.succeeds chrono = false := by
          rw [hs, storesAll, hst, Bool.false_and]
        exact .inr ⟨hf, error, published, hsi hf, bind_error her⟩
      | true =>
        obtain ⟨_, -, hre⟩ := reply_ok (s := published) hst
        rw [bind_ok hre]
        rw [storesAll, hst, Bool.true_and,
          ← toBool_applySync published.store item.account.id item.calendarId] at hs
        unfold storeBatch
        cases ha : published.store.applySync chrono item.account.id item.calendarId batch with
        | error error =>
          rw [ha] at hs
          exact .inr ⟨hs, error, published, hsi hs, rfl⟩
        | ok store =>
          rw [ha] at hs
          refine .inl ⟨hs, _, ?_, rfl⟩
          rw [ht, hpu, hl, append_assoc]
    · have hf : item.succeeds chrono = false := by
        rw [Nat.zero_add] at hfa
        have hno : item.publishesAll batch = false := by
          rw [Bool.eq_false_iff]
          intro hal
          rw [all_eq_true.mp hal n (mem_range.mpr hn)] at hfa
          cases hfa
        rw [hs, hno, Bool.false_and]
      refine .inr ⟨hf, error, t, ?_, bind_error hr⟩
      rcases hb hf with he | hz
      · rw [he] at hn
        exact absurd hn (Nat.not_lt_zero n)
      · rw [hfi hz, hl]
  · refine .inr ⟨?_, error, t, hl, bind_error hfe⟩
    rw [succeeds, hd, Option.any_none, Bool.and_false]

/-- How a call goes through some calendars: all of them succeed, or it stops at the first that
fails. The log has the traces of those before. -/
def Ran (chrono : Chrono) (items : List CloudItem) (s : Cloud) :
    EStateM.Result String Cloud Unit → Prop
  | .ok _ t => (∀ item ∈ items, item.succeeds chrono = true) ∧ t.log = s.log ++ items.flatMap trace
  | .error _ t => ∃ before item after, items = before ++ item :: after ∧
      (∀ item ∈ before, item.succeeds chrono = true) ∧ item.succeeds chrono = false ∧
        t.log = s.log ++ before.flatMap trace

theorem ran_nil : Ran chrono [] s ((pure () : EStateM String Cloud Unit) s) :=
  ⟨fun _ hm => absurd hm not_mem_nil, (append_nil _).symm⟩

theorem ran_append {m m' : EStateM String Cloud Unit} (hm : Ran chrono items s (m s))
    (hm' : ∀ t, Ran chrono more t (m' t)) :
    Ran chrono (items ++ more) s ((m >>= fun _ => m') s) := by
  cases hr : m s with
  | error error t =>
    rw [hr] at hm
    obtain ⟨pre, item, after, rfl, hp, hi, hl⟩ := hm
    rw [bind_error hr]
    exact ⟨pre, item, after ++ more, by simp, hp, hi, hl⟩
  | ok _ t =>
    rw [hr] at hm
    obtain ⟨ha, hl⟩ := hm
    rw [bind_ok hr]
    have hre := hm' t
    cases hr' : m' t with
    | error error u =>
      rw [hr'] at hre
      obtain ⟨pre, item, after, rfl, hp, hi, hl'⟩ := hre
      refine ⟨items ++ pre, item, after, by simp, ?_, hi, ?_⟩
      · exact forall_mem_append.mpr ⟨ha, hp⟩
      · rw [hl', hl, flatMap_append, append_assoc]
    | ok _ u =>
      rw [hr'] at hre
      obtain ⟨ha', hl'⟩ := hre
      refine ⟨forall_mem_append.mpr ⟨ha, ha'⟩, ?_⟩
      rw [hl', hl, flatMap_append, append_assoc]

theorem ran_calendar (ho : item.opens) (hk : item.KeepsEvents chrono) :
    Ran chrono [item] s (syncCalendar chrono item.account item.calendarId item.calendar s) := by
  rcases syncCalendar_eq (s := s) ho hk with
    ⟨hs, t, hl, hr⟩ | ⟨hf, err, t, hl, hr⟩
  · rw [hr]
    exact ⟨forall_mem_singleton.mpr hs, by simpa using hl⟩
  · rw [hr]
    exact ⟨[], item, [], rfl, fun other hm => absurd hm not_mem_nil, hf,
      by simpa using hl⟩

theorem ran_calendars {acct : CalendarAccount} {reps : AccountReplies}
    (ho : ∀ cal, (⟨acct, reps, cal⟩ : CloudItem).opens)
    {calendarIds : List String} (hk : ∀ cal ∈ calendarIds,
      (⟨acct, reps, cal⟩ : CloudItem).KeepsEvents chrono) :
    Ran chrono (calendarIds.map fun cal => ⟨acct, reps, cal⟩) s
      (syncCalendars chrono acct reps.calendars calendarIds s) := by
  induction calendarIds generalizing s with
  | nil => exact ran_nil
  | cons cal calendarIds ih =>
    obtain ⟨hf, hr⟩ := forall_mem_cons.mp hk
    have hc := ran_calendar (s := s) (ho cal) hf
    exact ran_append hc fun t => ih hr

theorem ran_accounts {accounts : List (CalendarAccount × AccountReplies)}
    (hk : ∀ item ∈ cloudItems accounts, item.KeepsEvents chrono) :
    Ran chrono (cloudItems accounts) s (syncAccounts chrono accounts s) := by
  induction accounts generalizing s with
  | nil => exact ran_nil
  | cons e accounts ih =>
    obtain ⟨acct, reps⟩ := e
    have hi : cloudItems ((acct, reps) :: accounts) =
        ((selectedCalendarIds acct).map fun cal => ⟨acct, reps, cal⟩) ++
          cloudItems accounts := flatMap_cons
    rw [hi] at hk ⊢
    obtain ⟨hf, hre⟩ := forall_mem_append.mp hk
    rcases openAccount_eq ⟨acct, reps, acct.calendarId⟩ s with
      ⟨ho, hr⟩ | ⟨hc, err, hr⟩
    · have hn : syncAccounts chrono ((acct, reps) :: accounts) s =
          (syncCalendars chrono acct reps.calendars (selectedCalendarIds acct) >>=
            fun _ => syncAccounts chrono accounts) s := bind_ok hr
      rw [hn]
      exact ran_append (ran_calendars (fun _ => ho) (forall_mem_map.mp hf)) fun t => ih hre
    · have hn : syncAccounts chrono ((acct, reps) :: accounts) s = .error err s :=
        bind_error hr
      rw [hn]
      -- an account that cannot be opened is one whose first calendar fails
      cases hid : selectedCalendarIds acct with
      | nil =>
        unfold selectedCalendarIds at hid
        split_ifs at hid with he
        rw [hid] at he
        exact absurd rfl he
      | cons cal calendarIds =>
        refine ⟨[], ⟨acct, reps, cal⟩, _, rfl,
          fun _ hm => absurd hm not_mem_nil, ?_, (append_nil _).symm⟩
        have hfa : (⟨acct, reps, cal⟩ : CloudItem).opens = false := hc
        rw [succeeds, hfa, Bool.false_and]

end CloudItem

/-! ### Calls -/

variable {store : CalendarStore} {call : CloudCall} {calls : List CloudCall}
  {accountId aid calendarId cal : String}

/-- The log of a call: the traces of the calendars up to the first that fails. -/
theorem outcome_log (store : CalendarStore) (hk : ∀ item ∈ call.work, item.KeepsEvents chrono) :
    ∃ pre after, call.work = pre ++ after ∧
      (∀ item ∈ pre, item.succeeds chrono) ∧
        (∀ item ∈ after.head?, item.succeeds chrono = false) ∧
          (outcome chrono store call).log = pre.flatMap CloudItem.trace := by
  have hb : ∀ {error : String}, call.work = [] →
      runCloudCalendar chrono call ⟨store, [], 0⟩ = .error error ⟨store, [], 0⟩ →
        ∃ pre after, call.work = pre ++ after ∧
          (∀ item ∈ pre, item.succeeds chrono) ∧
            (∀ item ∈ after.head?, item.succeeds chrono = false) ∧
              (outcome chrono store call).log = pre.flatMap CloudItem.trace := by
    intro error hw hr
    refine ⟨[], [], hw, fun _ hm => absurd hm not_mem_nil, ?_, ?_⟩
    · rintro item ⟨⟩
    · rw [outcome, hr]
      rfl
  obtain ⟨prov, rem, networkAllowed, doc, cls⟩ := call
  cases networkAllowed with
  | false => exact hb rfl rfl
  | true =>
    cases doc with
    | error error => exact hb rfl rfl
    | ok doc =>
      cases cls with
      | error error => exact hb rfl rfl
      | ok =>
        have hra := CloudItem.ran_accounts (s := ⟨store, [], 0⟩) hk
        unfold outcome
        have hc : runCloudCalendar chrono ⟨prov, rem, true, .ok doc, .ok ()⟩
            ⟨store, [], 0⟩ = (syncAccounts chrono (CloudCall.accounts
              ⟨prov, rem, true, .ok doc, .ok ()⟩ doc) >>= fun _ => do
                let cloud ← get
                pure cloud.delivered) ⟨store, [], 0⟩ := rfl
        rw [hc]
        cases hr : syncAccounts chrono (CloudCall.accounts
          ⟨prov, rem, true, .ok doc, .ok ()⟩ doc) ⟨store, [], 0⟩ with
        | error error t =>
          rw [hr] at hra
          obtain ⟨pre, item, after, hw, hp, hi, hl⟩ := hra
          rw [bind_error hr]
          refine ⟨pre, item :: after, hw, hp, ?_, hl⟩
          rintro other ⟨⟩
          exact hi
        | ok _ t =>
          rw [hr] at hra
          rw [bind_ok hr]
          refine ⟨_, [], (append_nil _).symm, hra.1, ?_, hra.2⟩
          rintro other ⟨⟩

/-- Every calendar that succeeds is among those that the call reached. -/
theorem stored_of_succeeds (hk : KeepsCalendars chrono call) {item : CloudItem}
    (hm : item ∈ call.work) (hs : item.succeeds chrono) :
    ∃ batch ∈ item.downloaded, .stored item.account.id item.calendarId batch.events ∈
      (outcome chrono store call).log := by
  obtain ⟨pre, after, hw, -, ha, hlo⟩ := outcome_log store hk.2
  have hr : item ∈ pre := by
    have hla := hk.1
    rw [hw] at hm hla
    rcases mem_append.mp hm with hpr | hl
    · exact hpr
    · cases after with
      | nil => cases hl
      | cons fst rest =>
        have hf := ha fst rfl
        obtain ⟨-, hp, -⟩ := pairwise_append.mp hla
        rcases mem_cons.mp hl with rfl | hre
        · rw [hs] at hf
          cases hf
        · have hfi := (pairwise_cons.mp hp).1 item hre hs
          rw [hfi] at hf
          cases hf
  have hst : ∃ batch, item.downloaded = some batch := by
    rw [CloudItem.succeeds, Bool.and_eq_true] at hs
    obtain ⟨batch, hb, -⟩ := Option.any_eq_true _ _ |>.mp hs.2
    exact ⟨batch, hb⟩
  obtain ⟨batch, hb⟩ := hst
  refine ⟨batch, hb, ?_⟩
  rw [hlo]
  refine mem_flatMap.mpr ⟨item, hr, ?_⟩
  rw [CloudItem.trace, hb]
  exact mem_append_right _ mem_cons_self

theorem publishedOf_append {log more : List CloudEvent} :
    publishedOf aid cal (log ++ more) =
      publishedOf aid cal log ++ publishedOf aid cal more :=
  filterMap_append

theorem storedOf_append {log more : List CloudEvent} :
    storedOf aid cal (log ++ more) =
      storedOf aid cal log ++ storedOf aid cal more :=
  flatMap_append

/-- A calendar that succeeds publishes what it stores. -/
theorem publishedOf_trace (item : CloudItem) :
    publishedOf aid cal item.trace = storedOf aid cal item.trace := by
  unfold CloudItem.trace
  cases item.downloaded with
  | none => rfl
  | some batch =>
    dsimp only
    rw [publishedOf_append, storedOf_append]
    have hs : storedOf aid cal
        (batch.events.map (.published item.account.id item.calendarId)) = [] := by
      simp [storedOf]
    have hp : publishedOf aid cal
        [.stored item.account.id item.calendarId batch.events] = [] := rfl
    rw [hs, hp, append_nil, nil_append]
    by_cases hi : item.account.id = aid ∧ item.calendarId = cal
    · simp [publishedOf, storedOf, filterMap_map, hi]
    · simp [publishedOf, storedOf, filterMap_map, hi]

theorem publishedOf_outcome (hk : KeepsCalendars chrono call) :
    publishedOf aid cal (outcome chrono store call).log =
      storedOf aid cal (outcome chrono store call).log := by
  obtain ⟨pre, after, -, -, -, hl⟩ := outcome_log store hk.2
  rw [hl]
  clear hl
  induction pre with
  | nil => rfl
  | cons item pre ih =>
    rw [flatMap_cons, publishedOf_append, storedOf_append, ih, publishedOf_trace]

/-- Over calls that all meet the condition, each of them stores every calendar whose own steps
succeed, and what was published of a calendar are the events of the batches that were stored for
it, each once and in order. -/
theorem cloud_calls_isolated (store : CalendarStore)
    (hkeeps : ∀ call ∈ calls, KeepsCalendars chrono call) :
    (∀ call ∈ calls, ∀ before : CalendarStore, ∀ item ∈ call.work,
      item.succeeds chrono = true → ∃ batch ∈ item.downloaded,
        .stored item.account.id item.calendarId batch.events ∈ (outcome chrono before call).log) ∧
      ∀ accountId calendarId, publishedOf accountId calendarId (cloudHistory chrono store calls).1 =
        storedOf accountId calendarId (cloudHistory chrono store calls).1 := by
  refine ⟨fun call hm before item hi => stored_of_succeeds (hkeeps call hm) hi,
    fun accountId calendarId => ?_⟩
  induction calls generalizing store with
  | nil => rfl
  | cons call calls ih =>
    obtain ⟨hf, hr⟩ := forall_mem_cons.mp hkeeps
    show publishedOf accountId calendarId ((outcome chrono store call).log ++ _) =
      storedOf accountId calendarId ((outcome chrono store call).log ++ _)
    rw [publishedOf_append, storedOf_append, publishedOf_outcome hf, ih _ hr]

/-! Two accounts with the same meeting. -/

def meetingOf (accountId : String) : CalendarEvent :=
  { meetingRow.event with accountId }

def meetingBatch (accountId : String) : SyncBatch := ⟨[meetingOf accountId], [], some "next"⟩

def meetingReplies (accountId : String) (refreshToken : Except String String)
    (stored : Except String Unit) : AccountReplies where
  refreshToken
  tokens := .ok none
  saved := .ok ()
  calendars _ :=
    { cursor := .ok ()
      answer := .ok (meetingBatch accountId)
      cleared := .ok ()
      fullAnswer := .ok (meetingBatch accountId)
      publishes := fun _ => .ok ()
      stored }

def workItem (stored : Except String Unit) : CloudItem :=
  ⟨workAccount, meetingReplies "work" (.ok "refresh") stored, "primary"⟩

def revokedItem : CloudItem :=
  ⟨{ workAccount with id := "home" }, meetingReplies "home" (.error "invalid_grant") (.ok ()),
    "primary"⟩

def sampleCall (items : List CloudItem) : CloudCall :=
  ⟨.google, by decide, true, .ok (items.map fun item => (item.account, item.replies)), .ok ()⟩

theorem sample_calls : (∀ call ∈ [sampleCall [workItem (.ok ()), revokedItem],
      sampleCall [workItem (.ok ())]], KeepsCalendars epochChrono call) ∧
    (workItem (.ok ())).succeeds epochChrono ∧
    (outcome epochChrono .empty (sampleCall [revokedItem, workItem (.ok ())])).log = [] ∧
    publishedOf "work" "primary" (cloudHistory epochChrono .empty
        [sampleCall [workItem (.error "database is locked")], sampleCall [workItem (.ok ())]]).1 =
      [meetingOf "work", meetingOf "work"] ∧
    storedOf "work" "primary" (cloudHistory epochChrono .empty
        [sampleCall [workItem (.error "database is locked")], sampleCall [workItem (.ok ())]]).1 =
      [meetingOf "work"] := by
  decide +kernel

theorem cloud_calls_isolated_example :
    .stored "work" "primary" [meetingOf "work"] ∈ (outcome epochChrono .empty
        (sampleCall [workItem (.ok ()), revokedItem])).log ∧
      publishedOf "work" "primary" (cloudHistory epochChrono .empty
          [sampleCall [workItem (.ok ()), revokedItem], sampleCall [workItem (.ok ())]]).1 =
        storedOf "work" "primary" (cloudHistory epochChrono .empty
          [sampleCall [workItem (.ok ()), revokedItem], sampleCall [workItem (.ok ())]]).1 := by
  obtain ⟨hk, hs, -⟩ := sample_calls
  have hm : workItem (.ok ()) ∈ (sampleCall [workItem (.ok ()), revokedItem]).work := mem_cons_self
  obtain ⟨hi, hp⟩ := cloud_calls_isolated .empty hk
  obtain ⟨batch, hb, hst⟩ := hi _ mem_cons_self .empty _ hm hs
  cases hb
  exact ⟨hst, hp "work" "primary"⟩

/-- An account whose tokens are refused keeps the next one from its events, and events whose batch
is not written are published again. -/
theorem revoked_account_stops_others_and_events_repeat :
    (¬∀ (chrono : Chrono) (store : CalendarStore) (call : CloudCall), ∀ item ∈ call.work,
      item.succeeds chrono = true → ∃ batch ∈ item.downloaded,
        .stored item.account.id item.calendarId batch.events ∈ (outcome chrono store call).log) ∧
    ¬∀ (chrono : Chrono) (store : CalendarStore) (calls : List CloudCall)
      (accountId calendarId : String) (event : CalendarEvent),
        event ∈ storedOf accountId calendarId (cloudHistory chrono store calls).1 →
          (publishedOf accountId calendarId (cloudHistory chrono store calls).1).count event =
            (storedOf accountId calendarId (cloudHistory chrono store calls).1).count event := by
  obtain ⟨-, hsu, hlog, hpub, hst⟩ := sample_calls
  constructor
  · intro h
    obtain ⟨batch, -, hs⟩ := h epochChrono .empty (sampleCall [revokedItem, workItem (.ok ())])
      (workItem (.ok ())) (mem_cons_of_mem _ mem_cons_self) hsu
    rw [hlog] at hs
    cases hs
  · intro h
    have hc := h epochChrono .empty
      [sampleCall [workItem (.error "database is locked")], sampleCall [workItem (.ok ())]]
      "work" "primary" (meetingOf "work")
    rw [hpub, hst] at hc
    have ht := hc mem_cons_self
    simp at ht

end FocalDesk.Calendar
