import FocalDesk.Calendar.Store
import FocalDesk.Library.Transition
import Mathlib.Data.List.Perm.Subperm

/-! Due reminders are claimed once each. -/
namespace FocalDesk.Calendar
open Library List

/-- An entry of a sorted list is among the first ones when few are not after it. -/
theorem mem_take_of_countP_le {α : Type*} {f : α → ℤ} {l : List α} {n : ℕ} {a : α}
    (hs : l.Pairwise fun fst snd => f fst ≤ f snd) (hm : a ∈ l)
    (hc : l.countP (fun other => decide (f other ≤ f a)) ≤ n) : a ∈ l.take n := by
  rw [← take_append_drop n l, mem_append] at hm
  refine hm.resolve_right fun hd => ?_
  rw [← take_append_drop n l] at hs hc
  have hp : ∀ fst ∈ l.take n, f fst ≤ f a := fun fst hf =>
    (pairwise_append.mp hs).2.2 fst hf a hd
  have ha : (l.take n).countP (fun other => decide (f other ≤ f a)) = (l.take n).length :=
    countP_eq_length.mpr fun fst hf => decide_eq_true (hp fst hf)
  have ho : 0 < (l.drop n).countP (fun other => decide (f other ≤ f a)) :=
    countP_pos_iff.mpr ⟨a, hd, decide_eq_true (le_refl (f a))⟩
  have hl : (l.take n).length = n := by
    have hpo := length_pos_of_mem hd
    rw [length_drop] at hpo
    rw [length_take]
    omega
  rw [countP_append] at hc
  omega

theorem pairwise_sorted {α : Type*} (f : α → ℤ) (l : List α) :
    (l.insertionSort fun fst snd => f fst ≤ f snd).Pairwise fun fst snd => f fst ≤ f snd := by
  have : Std.Total fun fst snd : α => f fst ≤ f snd := ⟨fun fst snd => le_total (f fst) (f snd)⟩
  have : IsTrans α fun fst snd => f fst ≤ f snd := ⟨fun _ _ _ => le_trans⟩
  exact pairwise_insertionSort _ l

variable {chrono : Chrono} {store next : CalendarStore} {visited : List EventRow}
  {nowUnix graceSeconds : ℤ} {minutes : ReminderMinutes} {row other : EventRow}

def CalendarStore.rows (store : CalendarStore) : List EventRow := store.events.map Prod.snd

theorem CalendarStore.Sound.nodup_keys (h : store.Sound chrono) :
    (store.rows.map fun row => row.event.key).Nodup := by
  have hk : store.rows.map (fun row => row.event.key) = store.events.map Prod.fst := by
    rw [rows, map_map]
    exact map_congr_left fun e he => (h.keys e he).symm
  rw [hk]
  exact h.distinct

theorem CalendarStore.Sound.row_eq (h : store.Sound chrono) (hr : row ∈ store.rows)
    (ho : other ∈ store.rows) (hk : row.event.key = other.event.key) : row = other :=
  inj_on_of_nodup_map h.nodup_keys hr ho hk

theorem CalendarStore.Sound.start_eq (h : store.Sound chrono) (hr : row ∈ store.rows) :
    parseTime chrono row.event.startTime = .ok row.startUnix := by
  obtain ⟨e, he, rfl⟩ := mem_map.mp hr
  exact h.starts e he

theorem isCandidate_iff : store.isCandidate nowUnix graceSeconds row ↔
    row.event.cancelled = false ∧ nowUnix - graceSeconds < row.startUnix ∧
      row.startUnix ≤ nowUnix + 60 * 60 ∧ store.isDelivered row = false := by
  simp only [CalendarStore.isCandidate, Bool.and_eq_true, Bool.not_eq_true', decide_eq_true_iff,
    and_assoc]

theorem isDue_iff : isDue nowUnix graceSeconds minutes ⟨row.event, reminderAt minutes row⟩ ↔
    reminderAt minutes row ≤ nowUnix ∧ nowUnix - graceSeconds < reminderAt minutes row ∧
      0 < minutesOf minutes row.event.accountId := by
  simp only [isDue, Bool.and_eq_true, decide_eq_true_iff, and_assoc]

/-- A reminder comes no later than the start. -/
theorem reminderAt_le : reminderAt minutes row ≤ row.startUnix := by
  unfold reminderAt
  omega

/-! One call. -/

/-- The reminders that a call returns. -/
def dueReminders (store : CalendarStore) (visited : List EventRow) (nowUnix graceSeconds : ℤ)
    (minutes : ReminderMinutes) : List DueReminder :=
  ((store.selected nowUnix graceSeconds visited).map fun row =>
    ⟨row.event, reminderAt minutes row⟩).filter (isDue nowUnix graceSeconds minutes)

theorem selected_subperm (store : CalendarStore) (visited : List EventRow)
    (nowUnix graceSeconds : ℤ) : (store.selected nowUnix graceSeconds visited).Subperm visited :=
  (take_sublist _ _).subperm.trans ((perm_insertionSort _ _).subperm.trans filter_sublist.subperm)

theorem mem_dueReminders {rem : DueReminder}
    (h : rem ∈ dueReminders store visited nowUnix graceSeconds minutes) :
    ∃ row ∈ visited, rem = ⟨row.event, reminderAt minutes row⟩ ∧
      store.isCandidate nowUnix graceSeconds row ∧ isDue nowUnix graceSeconds minutes rem := by
  obtain ⟨hm, hd⟩ := mem_filter.mp h
  obtain ⟨row, hr, rfl⟩ := mem_map.mp hm
  have hf := (mem_insertionSort _).mp (mem_of_mem_take hr)
  exact ⟨row, mem_of_mem_filter hf, rfl, (mem_filter.mp hf).2, hd⟩

theorem nodup_dueReminders (hn : (visited.map fun row => row.event.key).Nodup) :
    ((dueReminders store visited nowUnix graceSeconds minutes).map
      fun rem => rem.event.key).Nodup := by
  have hse : ((store.selected nowUnix graceSeconds visited).map
      fun row => row.event.key).Nodup := by
    obtain ⟨rows, hp, hs⟩ := selected_subperm store visited nowUnix graceSeconds
    exact (hp.map _).nodup_iff.mp (hn.sublist (hs.map _))
  have hs := (filter_sublist (p := isDue nowUnix graceSeconds minutes)
    (l := (store.selected nowUnix graceSeconds visited).map fun row =>
      ⟨row.event, reminderAt minutes row⟩)).map fun rem => rem.event.key
  rw [map_map] at hs
  exact hse.sublist hs

/-- What the deliveries of a call add to the table. -/
structure Inserted (nowUnix : ℤ) (keys : List (EventKey × ℤ))
    (before after : List ((EventKey × ℤ) × ℤ)) : Prop where
  old : ∀ entry ∈ before, entry ∈ after
  new : ∀ entry ∈ after, entry ∈ before ∨ entry.1 ∈ keys
  recorded : ∀ key ∈ keys, (∃ entry ∈ before, entry.1 = key) ∨ (key, nowUnix) ∈ after

theorem foldlM_insertDelivered {due : List DueReminder} {starts : DueReminder → ℤ}
    (hst : ∀ rem ∈ due, parseTime chrono rem.event.startTime = .ok (starts rem))
    (delivered : List ((EventKey × ℤ) × ℤ)) :
    ∃ after, due.foldlM (insertDelivered chrono nowUnix) delivered = .ok after ∧
      Inserted nowUnix (due.map fun rem => (rem.event.key, starts rem)) delivered
        after := by
  induction due generalizing delivered with
  | nil => exact ⟨delivered, rfl, fun _ h => h, fun _ h => .inl h, nofun⟩
  | cons rem due ih =>
    obtain ⟨hs, hre⟩ := forall_mem_cons.mp hst
    let key := (rem.event.key, starts rem)
    by_cases hk : (delivered.any fun e => e.1 = key)
    · obtain ⟨after, hf, hold, hn, hr⟩ := ih hre delivered
      refine ⟨after, ?_, hold, ?_, ?_⟩
      · rw [foldlM_cons, insertDelivered, hs]
        simp only [bind, Except.bind, key] at hk ⊢
        rw [if_pos hk]
        exact hf
      · exact fun e he => (hn e he).imp_right (mem_cons_of_mem _)
      · intro other ho
        rcases mem_cons.mp ho with rfl | ho
        · obtain ⟨e, he, hsa⟩ := any_eq_true.mp hk
          exact .inl ⟨e, he, of_decide_eq_true hsa⟩
        · exact hr other ho
    · obtain ⟨after, hf, hold, hn, hr⟩ := ih hre (delivered ++ [(key, nowUnix)])
      have hl : (key, nowUnix) ∈ after := hold _ (mem_append_right _ (mem_singleton_self _))
      refine ⟨after, ?_, fun e he => hold e (mem_append_left _ he), ?_, ?_⟩
      · rw [foldlM_cons, insertDelivered, hs]
        simp only [bind, Except.bind, key] at hk ⊢
        rw [if_neg hk]
        exact hf
      · intro e he
        rcases hn e he with he | he
        · rcases mem_append.mp he with he | he
          · exact .inl he
          · rw [mem_singleton.mp he]
            exact .inr mem_cons_self
        · exact .inr (mem_cons_of_mem _ he)
      · intro other ho
        rcases mem_cons.mp ho with rfl | ho
        · exact .inr hl
        · rcases hr other ho with ⟨e, he, rfl⟩ | ha
          · rcases mem_append.mp he with he | he
            · exact .inl ⟨e, he, rfl⟩
            · rw [mem_singleton.mp he]
              exact .inr hl
          · exact .inr ha

/-- What a call does: it returns the due reminders, records them, and prunes old records. -/
theorem claimDueReminders_spec (h : store.Sound chrono) (hv : visited.Perm store.rows)
    (nowUnix graceSeconds : ℤ) (minutes : ReminderMinutes) :
    ∃ added, store.claimDueReminders chrono visited nowUnix graceSeconds minutes =
        .ok ({ store with delivered := added.filter fun e => ¬ e.2 < nowUnix - 90 * 86400 },
          dueReminders store visited nowUnix graceSeconds minutes) ∧
      Inserted nowUnix ((dueReminders store visited nowUnix graceSeconds minutes).map
        fun rem => (rem.event.key,
          rem.reminderAtUnix + (minutesOf minutes rem.event.accountId : ℤ) * 60))
        store.delivered added := by
  have hs : ∀ rem ∈ dueReminders store visited nowUnix graceSeconds minutes,
      parseTime chrono rem.event.startTime = .ok
        (rem.reminderAtUnix + (minutesOf minutes rem.event.accountId : ℤ) * 60) := by
    intro rem hr
    obtain ⟨row, hro, rfl, -⟩ := mem_dueReminders hr
    simp only [reminderAt, Int.sub_add_cancel]
    exact h.start_eq (hv.mem_iff.mp hro)
  obtain ⟨added, hf, hi⟩ := foldlM_insertDelivered hs store.delivered
  refine ⟨added, ?_, hi⟩
  unfold CalendarStore.claimDueReminders
  exact bind_eq_ok.mpr ⟨added, hf, rfl⟩

/-! Runs. -/

/-- A store with all reminders that were returned, and the times of the first and the last call. -/
structure ReminderRun where
  store : CalendarStore
  returned : List DueReminder
  span : Option (ℤ × ℤ)

/-- A call at some time, with the order in which the rows are visited. -/
structure ReminderCall where
  nowUnix : ℤ
  visited : List EventRow

namespace ReminderRun

section
variable (chrono : Chrono) (graceSeconds : ℤ) (minutes : ReminderMinutes)

/-- The next call comes later, but not later than the grace allows. -/
def Follows (run : ReminderRun) (nowUnix : ℤ) : Prop :=
  ∀ span ∈ run.span, span.2 < nowUnix ∧ nowUnix ≤ span.2 + graceSeconds

instance (run : ReminderRun) (nowUnix : ℤ) : Decidable (run.Follows graceSeconds nowUnix) :=
  inferInstanceAs (Decidable (∀ span ∈ run.span, _))

def spanAfter (run : ReminderRun) (nowUnix : ℤ) : Option (ℤ × ℤ) :=
  some ((run.span.map Prod.fst).getD nowUnix, nowUnix)

def step (run : ReminderRun) (call : ReminderCall) : Option ReminderRun :=
  if run.Follows graceSeconds call.nowUnix ∧ call.visited.Perm run.store.rows then
    match run.store.claimDueReminders chrono call.visited call.nowUnix graceSeconds minutes with
    | .error _ => some { run with span := run.spanAfter call.nowUnix }
    | .ok (store, due) => some
        { store
          returned := run.returned ++ due
          span := run.spanAfter call.nowUnix }
  else none

/-- The reminder of a row is due and was not delivered. -/
def Awaits (run : ReminderRun) (nowUnix : ℤ) (row : EventRow) : Prop :=
  row.event.cancelled = false ∧ run.store.isDelivered row = false ∧
    isDue nowUnix graceSeconds minutes ⟨row.event, reminderAt minutes row⟩ = true

instance (run : ReminderRun) (nowUnix : ℤ) (row : EventRow) :
    Decidable (run.Awaits graceSeconds minutes nowUnix row) :=
  inferInstanceAs (Decidable (_ ∧ _ ∧ _))

/-- Each event with a due reminder starts within an hour, among the first hundred candidates, and
no record is pruned while the reminder could still be due. -/
def Ample (run : ReminderRun) (call : ReminderCall) : Prop :=
  (∀ row ∈ run.store.rows, run.Awaits graceSeconds minutes call.nowUnix row →
    row.startUnix ≤ call.nowUnix + 60 * 60 ∧
      (run.store.rows.filter (run.store.isCandidate call.nowUnix graceSeconds)).countP
        (fun other => decide (other.startUnix ≤ row.startUnix)) ≤ 100) ∧
  ∀ row ∈ run.store.rows, ∀ entry ∈ run.store.delivered,
    entry.1 = (row.event.key, row.startUnix) → entry.2 < call.nowUnix - 90 * 86400 →
      reminderAt minutes row ≤ call.nowUnix + 1 - graceSeconds

instance (run : ReminderRun) (call : ReminderCall) :
    Decidable (run.Ample graceSeconds minutes call) :=
  inferInstanceAs (Decidable (_ ∧ _))

/-- No event is returned twice, and each one whose reminder was in the time that the calls covered
is returned. -/
structure ExactlyOnce (run : ReminderRun) : Prop where
  once : (run.returned.map fun reminder => reminder.event.key).Nodup
  all : ∀ span ∈ run.span, ∀ row ∈ run.store.rows, row.event.cancelled = false →
    0 < minutesOf minutes row.event.accountId → span.1 - graceSeconds < reminderAt minutes row →
      reminderAt minutes row ≤ span.2 → ∃ reminder ∈ run.returned, reminder.event = row.event

structure Good (run : ReminderRun) : Prop where
  sound : run.store.Sound chrono
  exact : run.ExactlyOnce graceSeconds minutes
  /-- What was returned was due at some call. -/
  past : ∀ reminder ∈ run.returned, ∃ row ∈ run.store.rows, row.event = reminder.event ∧
    ∃ span ∈ run.span, reminderAt minutes row ≤ span.2
  /-- It is recorded, or cannot be due again. -/
  recorded : ∀ row ∈ run.store.rows, (∃ reminder ∈ run.returned, reminder.event = row.event) →
    run.store.isDelivered row = true ∨
      ∃ span ∈ run.span, reminderAt minutes row ≤ span.2 + 1 - graceSeconds
  returned : ∀ row ∈ run.store.rows, run.store.isDelivered row = true →
    ∃ reminder ∈ run.returned, reminder.event = row.event

end

variable {run next : ReminderRun} {call : ReminderCall}

theorem isDelivered_iff {delivered : List ((EventKey × ℤ) × ℤ)} :
    ({ store with delivered } : CalendarStore).isDelivered row ↔
      ∃ e ∈ delivered, e.1 = (row.event.key, row.startUnix) := by
  simp [CalendarStore.isDelivered]

/-- What is due and was not delivered is returned. -/
theorem mem_dueReminders_of_awaits (hv : visited.Perm run.store.rows) (hr : row ∈ run.store.rows)
    (ha : run.Awaits graceSeconds minutes nowUnix row) (hs : row.startUnix ≤ nowUnix + 60 * 60)
    (hc : (run.store.rows.filter (run.store.isCandidate nowUnix graceSeconds)).countP
      (fun other => decide (other.startUnix ≤ row.startUnix)) ≤ 100) :
    ⟨row.event, reminderAt minutes row⟩ ∈
      dueReminders run.store visited nowUnix graceSeconds minutes := by
  obtain ⟨hca, hd, hdu⟩ := ha
  refine mem_filter.mpr ⟨mem_map.mpr ⟨row, ?_, rfl⟩, hdu⟩
  have hcn : run.store.isCandidate nowUnix graceSeconds row :=
    (isCandidate_iff).mpr ⟨hca, Int.lt_of_lt_of_le ((isDue_iff).mp hdu).2.1 reminderAt_le, hs, hd⟩
  have hm : row ∈ visited.filter (run.store.isCandidate nowUnix graceSeconds) :=
    mem_filter.mpr ⟨hv.mem_iff.mpr hr, hcn⟩
  have hp := perm_insertionSort (fun fst snd : EventRow =>
    fst.startUnix ≤ snd.startUnix) (visited.filter (run.store.isCandidate nowUnix graceSeconds))
  refine mem_take_of_countP_le (pairwise_sorted EventRow.startUnix _) (hp.mem_iff.mpr hm) ?_
  rw [(hp.trans (hv.filter _)).countP_eq]
  exact hc

/-- The state after a call. -/
theorem step_cases (h : run.store.Sound chrono)
    (hs : step chrono graceSeconds minutes run call = some next) :
    run.Follows graceSeconds call.nowUnix ∧ call.visited.Perm run.store.rows ∧ ∃ added,
      next = ⟨{ run.store with delivered := added.filter fun e =>
          ¬ e.2 < call.nowUnix - 90 * 86400 },
        run.returned ++ dueReminders run.store call.visited call.nowUnix graceSeconds minutes,
        run.spanAfter call.nowUnix⟩ ∧
      Inserted call.nowUnix
        ((dueReminders run.store call.visited call.nowUnix graceSeconds minutes).map
          fun rem => (rem.event.key,
            rem.reminderAtUnix + (minutesOf minutes rem.event.accountId : ℤ) * 60))
        run.store.delivered added := by
  unfold step at hs
  by_cases hg : run.Follows graceSeconds call.nowUnix ∧ call.visited.Perm run.store.rows
  · rw [if_pos hg] at hs
    obtain ⟨added, hc, hi⟩ := claimDueReminders_spec h hg.2 call.nowUnix graceSeconds minutes
    rw [hc] at hs
    exact ⟨hg.1, hg.2, added, (Option.some.inj hs).symm, hi⟩
  · rw [if_neg hg] at hs
    cases hs

/-- What holds of each reminder that a call returns. -/
theorem Good.due (h : run.Good chrono graceSeconds minutes)
    (hf : run.Follows graceSeconds call.nowUnix) (hv : call.visited.Perm run.store.rows)
    {rem : DueReminder}
    (hre : rem ∈ dueReminders run.store call.visited call.nowUnix graceSeconds minutes) :
    ∃ row ∈ run.store.rows, rem = ⟨row.event, reminderAt minutes row⟩ ∧
      run.store.isDelivered row = false ∧ reminderAt minutes row ≤ call.nowUnix ∧
        ∀ pre ∈ run.returned, pre.event ≠ row.event := by
  obtain ⟨row, hm, rfl, hc, hi⟩ := mem_dueReminders hre
  obtain ⟨hle, hlt, -⟩ := (isDue_iff).mp hi
  have hr := hv.mem_iff.mp hm
  have hn := ((isCandidate_iff).mp hc).2.2.2
  refine ⟨row, hr, rfl, hn, hle, ?_⟩
  intro pre he heq
  rcases h.recorded row hr ⟨pre, he, heq⟩ with hd | ⟨span, hs, hp⟩
  · rw [hn] at hd
    cases hd
  · have hl := (hf span hs).1
    omega

/-- What became due since the call before is awaited, and so returned. -/
theorem Good.awaits (h : run.Good chrono graceSeconds minutes)
    (hfo : run.Follows graceSeconds nowUnix) (hr : row ∈ run.store.rows)
    (hc : row.event.cancelled = false) (hm : 0 < minutesOf minutes row.event.accountId)
    (hn : ¬ ∃ rem ∈ run.returned, rem.event = row.event)
    (hf : (run.span.map Prod.fst).getD nowUnix - graceSeconds < reminderAt minutes row)
    (hle : reminderAt minutes row ≤ nowUnix) : run.Awaits graceSeconds minutes nowUnix row := by
  refine ⟨hc, ?_, (isDue_iff).mpr ⟨hle, ?_, hm⟩⟩
  · exact Bool.eq_false_iff.mpr fun hd => hn (h.returned row hr hd)
  · cases hs : run.span with
    | none =>
      rw [hs] at hf
      exact hf
    | some span =>
      rw [hs] at hf
      have hla : span.2 < reminderAt minutes row := by
        by_contra hp
        exact hn (h.exact.all span hs row hr hc hm hf (Int.not_lt.mp hp))
      have hl := (hfo span hs).2
      omega

theorem Good.step (h : run.Good chrono graceSeconds minutes)
    (ham : run.Ample graceSeconds minutes call)
    (hse : step chrono graceSeconds minutes run call = some next) :
    next.Good chrono graceSeconds minutes := by
  obtain ⟨hf, hv, added, rfl, hold, hne, hre⟩ := step_cases h.sound hse
  have hs := h.sound
  have hdu {rem : DueReminder} (hr : rem ∈
      dueReminders run.store call.visited call.nowUnix graceSeconds minutes) :=
    h.due hf hv hr
  have hl : ∀ span ∈ run.span, span.2 < call.nowUnix := fun span hsp =>
    (hf span hsp).1
  constructor
  · exact hs.sublist (List.Sublist.refl _)
  · constructor
    · rw [map_append]
      have hke : (call.visited.map fun row => row.event.key).Nodup :=
        (hv.map _).nodup_iff.mpr hs.nodup_keys
      refine nodup_append.mpr ⟨h.exact.once, nodup_dueReminders hke, ?_⟩
      intro key hk other ho heq
      obtain ⟨pre, hea, rfl⟩ := mem_map.mp hk
      obtain ⟨rem, hr, rfl⟩ := mem_map.mp ho
      obtain ⟨row, hro, rfl, -, -, hfr⟩ := hdu hr
      obtain ⟨before, hpr, he, -⟩ := h.past pre hea
      refine hfr pre hea ?_
      rw [← he] at heq ⊢
      rw [hs.row_eq hpr hro heq]
    · rintro _ ⟨⟩ row hro hca hm hfi hle
      by_cases hrt : ∃ rem ∈ run.returned, rem.event = row.event
      · obtain ⟨rem, hr, he⟩ := hrt
        exact ⟨rem, mem_append_left _ hr, he⟩
      · have ha := h.awaits hf hro hca hm hrt hfi hle
        obtain ⟨hst, hc⟩ := ham.1 row hro ha
        exact ⟨_, mem_append_right _ (mem_dueReminders_of_awaits hv hro ha hst hc), rfl⟩
  · intro rem hr
    rcases mem_append.mp hr with hr | hr
    · obtain ⟨row, hro, he, span, hsp, hpa⟩ := h.past rem hr
      exact ⟨row, hro, he, _, rfl, Int.le_trans hpa (Int.le_of_lt (hl span hsp))⟩
    · obtain ⟨row, hro, rfl, -, hle, -⟩ := hdu hr
      exact ⟨row, hro, rfl, _, rfl, hle⟩
  · rintro row hro ⟨rem, hr, he⟩
    rcases mem_append.mp hr with hr | hr
    · rcases h.recorded row hro ⟨rem, hr, he⟩ with hd | ⟨span, hsp, hpa⟩
      · obtain ⟨e, hen, hk⟩ := (isDelivered_iff).mp hd
        by_cases hp : e.2 < call.nowUnix - 90 * 86400
        · exact .inr ⟨_, rfl, ham.2 row hro e hen hk hp⟩
        · exact .inl ((isDelivered_iff).mpr
            ⟨e, mem_filter.mpr ⟨hold e hen, decide_eq_true hp⟩, hk⟩)
      · refine .inr ⟨_, rfl, ?_⟩
        have hea := hl span hsp
        dsimp only
        omega
    · obtain ⟨other, ho, rfl, hn, -⟩ := hdu hr
      obtain rfl := hs.row_eq ho hro (congrArg CalendarEvent.key he)
      rcases hre _ (mem_map_of_mem hr) with ⟨e, hen, hk⟩ | had
      · simp only [reminderAt, Int.sub_add_cancel] at hk
        rw [(isDelivered_iff).mpr ⟨e, hen, hk⟩] at hn
        cases hn
      · simp only [reminderAt, Int.sub_add_cancel] at had
        refine .inl ((isDelivered_iff).mpr ⟨_, mem_filter.mpr ⟨had, ?_⟩, rfl⟩)
        exact decide_eq_true (by dsimp only; omega)
  · intro row hro hd
    obtain ⟨e, hen, hk⟩ := (isDelivered_iff).mp hd
    rcases hne e (mem_of_mem_filter hen) with hen | hen
    · obtain ⟨rem, hr, he⟩ :=
        h.returned row hro ((isDelivered_iff).mpr ⟨e, hen, hk⟩)
      exact ⟨rem, mem_append_left _ hr, he⟩
    · obtain ⟨rem, hr, hsa⟩ := mem_map.mp hen
      obtain ⟨other, ho, rfl, -⟩ := hdu hr
      refine ⟨_, mem_append_right _ hr, ?_⟩
      rw [hk] at hsa
      rw [hs.row_eq ho hro (congrArg Prod.fst hsa)]

/-- A store before its first call. -/
def start (store : CalendarStore) : ReminderRun := ⟨store, [], none⟩

theorem good_start (h : store.Sound chrono) (hn : store.delivered = []) :
    (start store).Good chrono graceSeconds minutes where
  sound := h
  exact := ⟨nodup_nil, nofun⟩
  past := nofun
  recorded := by
    rintro row hr ⟨rem, hre, -⟩
    cases hre
  returned row hr hdelivered := by
    have hs : store = { store with delivered := [] } := by rw [← hn]
    obtain ⟨e, he, -⟩ := (isDelivered_iff).mp (hs ▸ hdelivered)
    cases he

/-- A call in time always succeeds. -/
theorem exists_step (run : ReminderRun) (call : ReminderCall) (graceSeconds : ℤ)
    (minutes : ReminderMinutes) (h : run.store.Sound chrono)
    (hf : run.Follows graceSeconds call.nowUnix) (hv : call.visited.Perm run.store.rows) :
    ∃ next, step chrono graceSeconds minutes run call = some next ∧
      next.returned = run.returned ++
        dueReminders run.store call.visited call.nowUnix graceSeconds minutes ∧
      next.span = run.spanAfter call.nowUnix ∧ next.store.rows = run.store.rows := by
  obtain ⟨added, hc, -⟩ := claimDueReminders_spec h hv call.nowUnix graceSeconds minutes
  unfold step
  rw [if_pos ⟨hf, hv⟩, hc]
  exact ⟨_, rfl, rfl, rfl, rfl⟩

end ReminderRun

open ReminderRun

/-- In every run of calls that are ample, no event is returned twice, and each uncancelled one whose
reminder time was covered is returned. -/
theorem reminders_claimed_once (chrono : Chrono) (graceSeconds : ℤ) (minutes : ReminderMinutes)
    (store : CalendarStore) (hsound : store.Sound chrono) (hnone : store.delivered = [])
    (calls : List ReminderCall) (final : ReminderRun)
    (hample : Meets (step chrono graceSeconds minutes) (Ample graceSeconds minutes) (start store)
      calls)
    (hrun : run (step chrono graceSeconds minutes) (start store) calls = some final) :
    final.ExactlyOnce graceSeconds minutes :=
  (run_invariant_of_meets (fun hs hample h => Good.step h hample hs) hample hrun
    (good_start hsound hnone)).exact

/-! A meeting ten minutes after the epoch, and other events one second after it. -/

def epochChrono : Chrono where
  rfc3339 text := if text = "1970-01-01T00:00:01Z" then some 1
    else if text = "1970-01-01T00:10:00Z" then some 600 else none
  date _ := none
  utc _ := none

def sampleRow (accountId eventId startTime : String) (startUnix : ℤ) : EventRow where
  event :=
    { accountId
      provider := .google
      calendarId := "primary"
      eventId
      title := "Event"
      startTime
      endTime := "1970-01-01T00:10:00Z"
      organizer := ""
      allDay := false
      cancelled := false }
  startUnix
  endUnix := 600

def meetingRow : EventRow := sampleRow "work" "meeting" "1970-01-01T00:10:00Z" 600

/-- Events of an account without reminders, and the meeting. -/
def crowdedRows (n : ℕ) : List EventRow :=
  (List.range n).map (fun k => sampleRow "feed" (String.ofList (List.replicate k 'x'))
    "1970-01-01T00:00:01Z" 1) ++ [meetingRow]

def crowdedStore (n : ℕ) : CalendarStore where
  events := (crowdedRows n).map fun row => (row.event.key, row)
  cursors := []
  delivered := []

def sampleMinutes : ReminderMinutes := [("feed", 0), ("work", 10)]

theorem rows_crowdedStore (n : ℕ) : (crowdedStore n).rows = crowdedRows n :=
  map_map.trans (map_id _)

theorem nodup_crowdedRows (n : ℕ) : ((crowdedRows n).map fun row => row.event.key).Nodup := by
  rw [crowdedRows, map_append, map_map]
  refine nodup_append.mpr ⟨?_, nodup_singleton _, ?_⟩
  · refine nodup_range.map ?_
    intro k l heq
    have hi := congrArg (fun key : EventKey => key.eventId.toList.length) heq
    simpa [sampleRow, CalendarEvent.key] using hi
  · intro key hk other ho heq
    obtain ⟨k, -, rfl⟩ := mem_map.mp hk
    rw [mem_singleton.mp ho] at heq
    have ha : "feed" = "work" := congrArg EventKey.accountId heq
    revert ha
    decide

theorem sound_crowdedStore (n : ℕ) : (crowdedStore n).Sound epochChrono := by
  have hf : parseTime epochChrono "1970-01-01T00:00:01Z" = .ok 1 := rfl
  have hm : parseTime epochChrono "1970-01-01T00:10:00Z" = .ok 600 := rfl
  have hro : ∀ row ∈ crowdedRows n,
      parseTime epochChrono row.event.startTime = .ok row.startUnix ∧
        parseTime epochChrono row.event.endTime = .ok row.endUnix := by
    intro row hr
    rcases mem_append.mp hr with hr | hr
    · obtain ⟨k, -, rfl⟩ := mem_map.mp hr
      exact ⟨hf, hm⟩
    · rw [mem_singleton.mp hr]
      exact ⟨hm, hm⟩
  constructor
  · intro e he
    obtain ⟨row, -, rfl⟩ := mem_map.mp he
    rfl
  · rw [crowdedStore, map_map]
    exact nodup_crowdedRows n
  · intro e he
    obtain ⟨row, hr, rfl⟩ := mem_map.mp he
    exact (hro row hr).1
  · intro e he
    obtain ⟨row, hr, rfl⟩ := mem_map.mp he
    exact (hro row hr).2

theorem reminders_claimed_once_sample : ∃ final : ReminderRun,
    run (step epochChrono 900 sampleMinutes) (start (crowdedStore 1))
        [⟨0, crowdedRows 1⟩, ⟨60, crowdedRows 1⟩] = some final ∧
      final.returned = [⟨meetingRow.event, 0⟩] ∧ final.ExactlyOnce 900 sampleMinutes := by
  have he : (checkedRun (step epochChrono 900 sampleMinutes) (Ample 900 sampleMinutes)
      (start (crowdedStore 1)) [⟨0, crowdedRows 1⟩, ⟨60, crowdedRows 1⟩]).any
        (fun final => final.returned = [⟨meetingRow.event, 0⟩]) = true := by
    decide +kernel
  obtain ⟨ha, final, hru, hr⟩ := exists_run_of_checked he
  exact ⟨final, hru, of_decide_eq_true hr, reminders_claimed_once epochChrono 900
    sampleMinutes (crowdedStore 1) (sound_crowdedStore 1) rfl _ final ha hru⟩

theorem dueReminders_crowded :
    dueReminders (crowdedStore 100) (crowdedRows 100) 0 900 sampleMinutes = [] := by
  decide +kernel

/-- A hundred events without reminders are selected, and the meeting is not. -/
theorem reminder_crowded_out : ¬ ∀ (chrono : Chrono) (graceSeconds : ℤ) (minutes : ReminderMinutes)
    (store : CalendarStore), 0 < graceSeconds → store.Sound chrono → store.delivered = [] →
      ∀ (calls : List ReminderCall) (final : ReminderRun),
        run (step chrono graceSeconds minutes) (start store) calls = some final →
          final.ExactlyOnce graceSeconds minutes := by
  intro h
  have hv : (crowdedRows 100).Perm (crowdedStore 100).rows := by
    rw [rows_crowdedStore]
  obtain ⟨next, hs, hre, hsp, hro⟩ := exists_step (start (crowdedStore 100))
    ⟨0, crowdedRows 100⟩ 900 sampleMinutes (sound_crowdedStore 100) nofun hv
  have hru : run (step epochChrono 900 sampleMinutes) (start (crowdedStore 100))
      [⟨0, crowdedRows 100⟩] = some next := run_cons_eq_some.mpr ⟨next, hs, rfl⟩
  have he := h epochChrono 900 sampleMinutes (crowdedStore 100) (by decide)
    (sound_crowdedStore 100) rfl _ next hru
  have hm : meetingRow ∈ next.store.rows := by
    rw [hro]
    exact hv.mem_iff.mp (mem_append_right _ (mem_singleton_self _))
  obtain ⟨rem, hr, -⟩ := he.all (0, 0) hsp meetingRow hm rfl (by decide) (by decide) (by decide)
  rw [hre, mem_append] at hr
  rcases hr with hr | hr
  · cases hr
  · rw [show dueReminders (start (crowdedStore 100)).store (crowdedRows 100) 0 900 sampleMinutes = []
      from dueReminders_crowded] at hr
    cases hr

end FocalDesk.Calendar
