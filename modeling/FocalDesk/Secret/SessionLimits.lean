import FocalDesk.Secret.Sessions
import Mathlib.Data.List.TakeWhile

/-! When the limits on sessions hold, and whose sessions a call can use. -/
namespace FocalDesk
open Library List Option

variable {crypto : SessionCrypto} {table table' : SessionTable} {event : SessionEvent}
  {events : List SessionEvent} {n sid now limit : ℕ} {owner : String} {call next : OpenCall}
  {who : String → Bool}

/-- The caller of a call that was told there is room and has not yet put its session in. -/
def OpenCall.pendingOwner : OpenCall → Option String
  | .checked owner _ _ => some owner
  | .agreed owner _ _ => some owner
  | .numbered _ owner _ _ => some owner
  | _ => none

namespace SessionTable

/-- The sessions of some callers. -/
def sessionsOf (table : SessionTable) (who : String → Bool) : ℕ :=
  table.sessions.countP fun entry => who entry.2.owner

/-- The calls of some callers that still have to put their session in. -/
def pendingOf (table : SessionTable) (who : String → Bool) : ℕ :=
  table.calls.countP fun entry => entry.2.pendingOwner.any who

/-- Times reach the log in order, and a call goes on only if there is room also after those that
were told so before. -/
def orderly (table : SessionTable) : SessionEvent → Bool
  | .attempt n =>
    match table.calls.lookup n with
    | some (.stamped _ _ _ now) => table.latest ≤ now
    | _ => true
  | .check n =>
    match table.calls.lookup n with
    | some (.admitted owner _ _) => !table.hasRoom owner ||
      decide (table.sessions.length + table.pendingOf (fun _ => true) < maxSessions) &&
        decide (table.countOf owner + table.pendingOf (· == owner) < maxSessionsPerCaller)
    | _ => true
  | _ => true

/-! The two counts together. -/

/-- Sessions and pending calls of some callers stay within a limit. -/
def Room (limit : ℕ) (who : String → Bool) (table : SessionTable) : Prop :=
  table.sessionsOf who + table.pendingOf who ≤ limit

theorem pendingOf_answer_le (ans : OpenAnswer) :
    (table.answer n ans).pendingOf who ≤ table.pendingOf who := countP_removeKey_le

/-- A call goes on that was pending before if it is now. -/
theorem pendingOf_proceed_le (hc : table.calls.lookup n = some call)
    (h : next.pendingOwner.any who → call.pendingOwner.any who) :
    (table.proceed n next).pendingOf who ≤ table.pendingOf who :=
  countP_putKey_of_le hc h

theorem pendingOf_proceed_none (h : next.pendingOwner = none) :
    (table.proceed n next).pendingOf who ≤ table.pendingOf who := by
  refine countP_putKey_le.trans ?_
  simp [h, pendingOf]

theorem pendingOf_proceed_one (table : SessionTable) (n : ℕ) (next : OpenCall) (who : String → Bool)
    : (table.proceed n next).pendingOf who ≤
      table.pendingOf who + if next.pendingOwner.any who then 1 else 0 :=
  countP_putKey_le

/-- A call that puts its session in is no longer pending. -/
theorem pendingOf_inserted (who : String → Bool) (hc : table.calls.lookup n = some call)
    (h : next.pendingOwner = none) :
    (table.proceed n next).pendingOf who + (if call.pendingOwner.any who then 1 else 0) ≤
      table.pendingOf who := by
  have hr := countP_removeKey_add (fun e => e.2.pendingOwner.any who) hc
  simp only [pendingOf, proceed, countP_putKey, h, any_none, Bool.false_eq_true, if_false,
    Nat.add_zero]
  exact hr

theorem room_of_le (h : table.Room limit who) (hs : table'.sessionsOf who ≤ table.sessionsOf who)
    (hp : table'.pendingOf who ≤ table.pendingOf who) : table'.Room limit who :=
  le_trans (Nat.add_le_add hs hp) h

/-- What a step of an opening keeps, if only calls that find room go on. -/
theorem stepOpen_room (hs : table.stepOpen crypto event = some table')
    (hch : ∀ n owner algorithm input, event = .check n →
      table.calls.lookup n = some (.admitted owner algorithm input) → table.hasRoom owner →
      who owner → table.sessionsOf who + table.pendingOf who < limit)
    (h : table.Room limit who) : table'.Room limit who := by
  cases event with
  | attempt n =>
    simp only [stepOpen] at hs
    split at hs
    · split at hs
      · cases hs
        exact room_of_le h le_rfl (pendingOf_proceed_none rfl)
      · cases hs
        exact room_of_le h le_rfl (pendingOf_answer_le _)
    · cases hs
  | check n =>
    simp only [stepOpen] at hs
    split at hs
    · rename_i owner algorithm input hc
      split at hs
      · rename_i hr
        cases hs
        have hp := table.pendingOf_proceed_one n (.checked owner algorithm input) who
        by_cases hw : who owner
        · have hlt := hch n owner algorithm input rfl hc hr hw
          have ho : (OpenCall.checked owner algorithm input).pendingOwner.any who := hw
          rw [if_pos ho] at hp
          exact le_trans (Nat.add_le_add_left hp _) hlt
        · have hn : ¬ (OpenCall.checked owner algorithm input).pendingOwner.any who := hw
          rw [if_neg hn] at hp
          exact room_of_le h le_rfl hp
      · cases hs
        exact room_of_le h le_rfl (pendingOf_answer_le _)
    · cases hs
  | agree n privateKey =>
    simp only [stepOpen] at hs
    split at hs
    · rename_i hc
      split at hs
      · cases hs
        exact room_of_le h le_rfl (pendingOf_answer_le _)
      · cases hs
        exact room_of_le h le_rfl (pendingOf_proceed_le hc fun hw => hw)
    · cases hs
  | number n =>
    simp only [stepOpen] at hs
    split at hs
    · rename_i hc
      cases hs
      exact room_of_le h le_rfl (pendingOf_proceed_le hc fun hw => hw)
    · cases hs
  | insert n =>
    simp only [stepOpen] at hs
    split at hs
    · rename_i sid owner cipher out hc
      cases hs
      have hp : (table.proceed n (.inserted sid out)).pendingOf who + _ ≤ _ :=
        pendingOf_inserted who hc rfl
      have hse : (putKey sid { cipher, owner } table.sessions).countP
          (fun e => who e.2.owner) ≤ table.sessionsOf who +
            if (OpenCall.numbered sid owner cipher out).pendingOwner.any who then 1 else 0 :=
        countP_putKey_le
      unfold Room at h ⊢
      simp only [sessionsOf, pendingOf, proceed] at *
      omega
    · cases hs
  | register n failed =>
    simp only [stepOpen] at hs
    split at hs
    · cases failed with
      | some err =>
        cases hs
        exact room_of_le h countP_removeKey_le (pendingOf_answer_le _)
      | none =>
        cases hs
        exact room_of_le h le_rfl (pendingOf_answer_le _)
    · cases hs
  | openSession => cases hs
  | close => cases hs
  | disconnect => cases hs

/-- Other steps: a call begins, or sessions go. -/
theorem step_cases (hs : table.step crypto event = some table') :
    (∃ n call now, call.pendingOwner = none ∧
        table' = ({ table with clock := now } : SessionTable).proceed n call) ∨
      (∃ sessions : List (ℕ × ClientSession), sessions.Sublist table.sessions ∧
        table' = { table with sessions }) ∨
      table.stepOpen crypto event = some table' := by
  cases event with
  | openSession n owner algorithm input now =>
    simp only [step] at hs
    split at hs
    · cases hs
      exact .inl ⟨n, _, now, rfl, rfl⟩
    · cases hs
  | close sid owner =>
    simp only [step] at hs
    split at hs
    · cases hs
      exact .inr (.inl ⟨table.sessions, List.Sublist.refl _, rfl⟩)
    · cases hs
      exact .inr (.inl ⟨_, filter_sublist, rfl⟩)
  | disconnect owner =>
    cases hs
    exact .inr (.inl ⟨_, filter_sublist, rfl⟩)
  | _ => exact .inr (.inr hs)

theorem step_room (hs : table.step crypto event = some table')
    (hc : ∀ n owner algorithm input, event = .check n →
      table.calls.lookup n = some (.admitted owner algorithm input) → table.hasRoom owner →
      who owner → table.sessionsOf who + table.pendingOf who < limit)
    (h : table.Room limit who) : table'.Room limit who := by
  rcases step_cases hs with ⟨n, call, now, hca, rfl⟩ | ⟨sessions, hsu, rfl⟩ | ho
  · exact room_of_le h le_rfl (pendingOf_proceed_none hca)
  · exact room_of_le h hsu.countP_le le_rfl
  · exact stepOpen_room ho hc h

/-! The log of admissions. -/

/-- The log holds what was admitted, but for times that no later window reaches. -/
structure Logged (table : SessionTable) : Prop where
  recalled : ∃ dropped, table.admissions = dropped ++ table.attempts ∧
    ∀ time ∈ dropped, time + sessionOpenWindow ≤ table.latest
  past : ∀ time ∈ table.admissions, time ≤ table.latest
  limited : RateLimited 0 maxSessionOpensPerWindow sessionOpenWindow table.admissions

theorem Logged.of_eq (h : table.Logged) (ha : table'.admissions = table.admissions)
    (hat : table'.attempts = table.attempts) (hl : table'.latest = table.latest) :
    table'.Logged := by
  refine ⟨?_, ?_, ?_⟩
  · rw [ha, hat, hl]
    exact h.recalled
  · rw [ha, hl]
    exact h.past
  · rw [ha]
    exact h.limited

/-- What is dropped from the log for a later time is out of every window with it. -/
theorem Logged.split (h : table.Logged) (hn : table.latest ≤ now) :
    ∃ dropped, table.admissions = dropped ++ table.attempts.dropWhile
        (fun attempt => decide (sessionOpenWindow ≤ now - attempt)) ∧
      ∀ time ∈ dropped, time + sessionOpenWindow ≤ now := by
  obtain ⟨dropped, hr, hold⟩ := h.recalled
  refine ⟨dropped ++ table.attempts.takeWhile
    (fun attempt => decide (sessionOpenWindow ≤ now - attempt)), ?_, ?_⟩
  · rw [append_assoc, takeWhile_append_dropWhile]
    exact hr
  · intro time ht
    rcases mem_append.mp ht with ht | ht
    · exact (hold time ht).trans hn
    · have hta := mem_takeWhile_imp ht
      have hg : sessionOpenWindow ≤ now - time := of_decide_eq_true hta
      have hp : 0 < sessionOpenWindow := by decide
      omega

theorem Logged.attempt (h : table.Logged) (hn : table.latest ≤ now)
    (hl : table'.latest = max table.latest now)
    (hat : table'.attempts = (admitSessionOpen table.attempts now).1)
    (ha : table'.admissions =
      table.admissions ++ if (admitSessionOpen table.attempts now).2 then [now] else []) :
    table'.Logged := by
  obtain ⟨dropped, hs, hg⟩ := h.split hn
  rw [max_eq_right hn] at hl
  have hp : ∀ time ∈ table.admissions, time ≤ now := fun time ht =>
    (h.past time ht).trans hn
  unfold admitSessionOpen at hat ha
  dsimp only at hat ha
  generalize table.attempts.dropWhile
    (fun attempt => decide (sessionOpenWindow ≤ now - attempt)) = kept at *
  by_cases hf : maxSessionOpensPerWindow ≤ kept.length
  · rw [if_pos hf] at hat ha
    simp only [Bool.false_eq_true, if_false, append_nil] at ha
    refine ⟨⟨dropped, ?_, ?_⟩, ?_, ?_⟩
    · rw [ha, hat]
      exact hs
    · rw [hl]
      exact hg
    · rw [ha, hl]
      exact hp
    · rw [ha]
      exact h.limited
  · rw [if_neg hf] at hat ha
    simp only [if_true] at ha
    refine ⟨⟨dropped, ?_, ?_⟩, ?_, ?_⟩
    · rw [ha, hat, hs, append_assoc]
    · rw [hl]
      exact hg
    · rw [ha, hl]
      intro time ht
      rcases mem_append.mp ht with ht | ht
      · exact hp time ht
      · exact (mem_singleton.mp ht).le
    · rw [ha]
      refine h.limited.snoc hp (fun time _ => Nat.zero_le _) ?_
      have hno : dropped.countP (fun time => decide (now - time < sessionOpenWindow)) = 0 := by
        rw [countP_eq_zero]
        intro time ht
        have hold := hg time ht
        simp only [decide_eq_true_eq]
        omega
      rw [hs, countP_append, hno, Nat.zero_add]
      exact countP_le_length.trans_lt (Nat.lt_of_not_le hf)

theorem stepOpen_logged (hs : table.stepOpen crypto event = some table') (ho : table.orderly event)
    (h : table.Logged) : table'.Logged := by
  cases event with
  | attempt n =>
    simp only [stepOpen] at hs
    simp only [orderly] at ho
    split at hs
    · rename_i owner algorithm input now hc
      rw [hc] at ho
      have hn : table.latest ≤ now := of_decide_eq_true ho
      split at hs
      · rename_i ha
        cases hs
        exact h.attempt hn rfl rfl (by rw [if_pos ha]; rfl)
      · rename_i hr
        cases hs
        exact h.attempt hn rfl rfl (by rw [if_neg hr, append_nil]; rfl)
    · cases hs
  | check n =>
    simp only [stepOpen] at hs
    split at hs
    · split at hs
      · cases hs
        exact h.of_eq rfl rfl rfl
      · cases hs
        exact h.of_eq rfl rfl rfl
    · cases hs
  | agree n privateKey =>
    simp only [stepOpen] at hs
    split at hs
    · split at hs
      · cases hs
        exact h.of_eq rfl rfl rfl
      · cases hs
        exact h.of_eq rfl rfl rfl
    · cases hs
  | number n =>
    simp only [stepOpen] at hs
    split at hs
    · cases hs
      exact h.of_eq rfl rfl rfl
    · cases hs
  | insert n =>
    simp only [stepOpen] at hs
    split at hs
    · cases hs
      exact h.of_eq rfl rfl rfl
    · cases hs
  | register n failed =>
    simp only [stepOpen] at hs
    split at hs
    · cases failed with
      | some err =>
        cases hs
        exact h.of_eq rfl rfl rfl
      | none =>
        cases hs
        exact h.of_eq rfl rfl rfl
    · cases hs
  | openSession => cases hs
  | close => cases hs
  | disconnect => cases hs

theorem step_logged (hs : table.step crypto event = some table') (ho : table.orderly event)
    (h : table.Logged) : table'.Logged := by
  rcases step_cases hs with ⟨n, call, now, hc, rfl⟩ | ⟨sessions, hsu, rfl⟩ | hop
  · exact h.of_eq rfl rfl rfl
  · exact h.of_eq rfl rfl rfl
  · exact stepOpen_logged hop ho h

/-! Who opened a session. -/

/-- Every session in the table belongs to the caller whose call put it in last. -/
def Owned (table : SessionTable) : Prop :=
  ∀ entry ∈ table.sessions, table.openers.lookup entry.1 = some entry.2.owner

theorem Owned.of_subset (h : table.Owned) (hs : table'.sessions ⊆ table.sessions)
    (ho : table'.openers = table.openers) : table'.Owned := by
  intro e he
  rw [ho]
  exact h e (hs he)

/-- What a step of an opening does to the sessions: one is put in with its opener, or some go. -/
theorem stepOpen_cases (hs : table.stepOpen crypto event = some table') :
    (∃ sid sess, table'.sessions = putKey sid sess table.sessions ∧
        table'.openers = putKey sid sess.owner table.openers) ∨
      table'.sessions ⊆ table.sessions ∧ table'.openers = table.openers := by
  cases event with
  | attempt n =>
    simp only [stepOpen] at hs
    split at hs
    · split at hs <;> obtain rfl := some.inj hs <;> exact .inr ⟨List.Subset.refl _, rfl⟩
    · cases hs
  | check n =>
    simp only [stepOpen] at hs
    split at hs
    · split at hs <;> obtain rfl := some.inj hs <;> exact .inr ⟨List.Subset.refl _, rfl⟩
    · cases hs
  | agree n privateKey =>
    simp only [stepOpen] at hs
    split at hs
    · split at hs <;> obtain rfl := some.inj hs <;> exact .inr ⟨List.Subset.refl _, rfl⟩
    · cases hs
  | number n =>
    simp only [stepOpen] at hs
    split at hs
    · cases hs
      exact .inr ⟨List.Subset.refl _, rfl⟩
    · cases hs
  | insert n =>
    simp only [stepOpen] at hs
    split at hs
    · rename_i sid owner cipher output hc
      cases hs
      exact .inl ⟨sid, { cipher, owner }, rfl, rfl⟩
    · cases hs
  | register n failed =>
    simp only [stepOpen] at hs
    split at hs
    · cases failed with
      | some err =>
        cases hs
        exact .inr ⟨filter_sublist.subset, rfl⟩
      | none =>
        cases hs
        exact .inr ⟨List.Subset.refl _, rfl⟩
    · cases hs
  | openSession => cases hs
  | close => cases hs
  | disconnect => cases hs

theorem step_owned (hst : table.step crypto event = some table') (h : table.Owned) :
    table'.Owned := by
  rcases step_cases hst with ⟨n, call, now, hc, rfl⟩ | ⟨sessions, hs, rfl⟩ | hop
  · exact h.of_subset (List.Subset.refl _) rfl
  · exact h.of_subset hs.subset rfl
  · rcases stepOpen_cases hop with ⟨sid, sess, hse, ho⟩ | ⟨hs, ho⟩
    · intro e he
      rw [hse] at he
      rw [ho]
      rcases mem_append.mp he with he | he
      · obtain ⟨he, hne⟩ := mem_filter.mp he
        rw [lookup_putKey_of_ne (of_decide_eq_true hne)]
        exact h e he
      · obtain rfl := mem_singleton.mp he
        exact lookup_putKey_self
    · exact h.of_subset hs ho

/-- A session that a caller can use is one that it opened. -/
theorem Owned.usable (h : table.Owned) {sess : ClientSession}
    (hs : table.sessions.lookup sid = some sess) (ho : sess.owner = owner) :
    table.openers.lookup sid = some owner := by
  rw [← ho]
  exact h (sid, sess) (mem_of_lookup hs)

theorem Owned.encrypt (h : table.Owned) {sess ctype : String} {iv plaintext : List UInt8}
    {wire : WireSecret}
    (hok : table.encryptForSession crypto owner sess iv plaintext ctype = .ok wire) :
    ∃ sid, sessionId sess = some sid ∧ table.openers.lookup sid = some owner := by
  unfold encryptForSession at hok
  split at hok
  · cases hok
  · rename_i sid hsi
    split at hok
    · cases hok
    · rename_i state hs
      split at hok
      · cases hok
      · rename_i ho
        exact ⟨sid, hsi, h.usable hs (not_not.mp ho)⟩

theorem Owned.decrypt (h : table.Owned) {sec : WireSecret} {plaintext : List UInt8}
    (hok : table.decryptFromSession crypto owner sec = .ok plaintext) :
    ∃ sid, sessionId sec.session = some sid ∧ table.openers.lookup sid = some owner := by
  unfold decryptFromSession at hok
  split at hok
  · cases hok
  · rename_i sid hsi
    split at hok
    · cases hok
    · rename_i state hs
      split at hok
      · cases hok
      · rename_i ho
        exact ⟨sid, hsi, h.usable hs (not_not.mp ho)⟩

/-! Runs. -/

/-- The limits on sessions, with the calls that are about to put one in. -/
structure Limited (table : SessionTable) : Prop where
  total : table.Room maxSessions fun _ => true
  each : ∀ owner, table.Room maxSessionsPerCaller (· == owner)
  logged : table.Logged

theorem limited_empty : empty.Limited := by
  refine ⟨Nat.zero_le _, fun _ => Nat.zero_le _, ⟨[], rfl, ?_⟩, ?_, rateLimited_nil⟩
  · intro time ht
    cases ht
  · intro time ht
    cases ht

theorem step_limited (hs : table.step crypto event = some table') (ho : table.orderly event)
    (h : table.Limited) : table'.Limited := by
  have hch : ∀ n owner algorithm input, event = .check n →
      table.calls.lookup n = some (.admitted owner algorithm input) → table.hasRoom owner →
      table.sessions.length + table.pendingOf (fun _ => true) < maxSessions ∧
        table.countOf owner + table.pendingOf (· == owner) < maxSessionsPerCaller := by
    rintro n owner algorithm input rfl hc hr
    simp only [orderly, hc, hr] at ho
    simpa using ho
  refine ⟨step_room hs ?_ h.total, ?_, step_logged hs ho h.logged⟩
  · intro n owner algorithm input he hc hr _
    have hl : table.sessionsOf (fun _ => true) = table.sessions.length := by
      simp [sessionsOf]
    rw [hl]
    exact (hch n owner algorithm input he hc hr).1
  · intro clr
    refine step_room hs ?_ (h.each clr)
    intro n owner algorithm input he hc hr how
    obtain rfl : owner = clr := by simpa using how
    exact (hch n owner algorithm input he hc hr).2

end SessionTable

/-- In every run a call encrypts and decrypts only with sessions that its caller opened; and if
times reach the log in order, and each call that goes on finds room also after those that were told
so before it, the table stays within its limits in every state and each window within its own. -/
theorem session_limits (crypto : SessionCrypto)
    (hrun : run (SessionTable.step crypto) SessionTable.empty events = some table) :
    (∀ owner session iv plaintext contentType wire,
        table.encryptForSession crypto owner session iv plaintext contentType = .ok wire →
        ∃ sid, sessionId session = some sid ∧ table.openers.lookup sid = some owner) ∧
      (∀ owner secret plaintext, table.decryptFromSession crypto owner secret = .ok plaintext →
        ∃ sid, sessionId secret.session = some sid ∧ table.openers.lookup sid = some owner) ∧
      (Meets (SessionTable.step crypto) (fun table event => table.orderly event = true)
          SessionTable.empty events →
        table.sessions.length ≤ maxSessions ∧
          (∀ owner, table.countOf owner ≤ maxSessionsPerCaller) ∧
          ∀ start, table.admissions.countP (inside sessionOpenWindow start) ≤
            maxSessionOpensPerWindow) := by
  have ho : table.Owned := by
    refine run_invariant SessionTable.step_owned hrun ?_
    intro e he
    cases he
  refine ⟨fun _ _ _ _ _ _ hok => ho.encrypt hok, fun _ _ _ hok => ho.decrypt hok, ?_⟩
  intro hor
  have hl : table.Limited :=
    run_invariant_of_meets SessionTable.step_limited hor hrun SessionTable.limited_empty
  have hle : table.sessionsOf (fun _ => true) = table.sessions.length := by
    simp [SessionTable.sessionsOf]
  refine ⟨?_, ?_, hl.logged.limited.bounded⟩
  · rw [← hle]
    exact (Nat.le_add_right _ _).trans hl.total
  · intro owner
    exact (Nat.le_add_right _ _).trans (hl.each owner)

/-! Plain sessions of one caller. -/

/-- Plain sessions ask nothing of it. -/
def plainCrypto : SessionCrypto where
  hkdf _ := []
  aesEncrypt _ _ plaintext := plaintext
  aesDecrypt _ _ value := some value

/-- A call up to where it has found room. -/
def openChecked (n : ℕ) : List SessionEvent :=
  [.openSession n ":1.5" "plain" (.ok []) 0, .attempt n, .check n]

/-- The rest of the call. -/
def openRest (n : ℕ) : List SessionEvent := [.agree n 0, .number n, .insert n, .register n none]

/-- Two sessions are opened at a time, and one of them is closed. -/
def sessionEvents : List SessionEvent :=
  openChecked 1 ++ openChecked 2 ++ openRest 2 ++ openRest 1 ++ [.close 2 ":1.5"]

theorem session_limits_sample : ∃ table,
    run (SessionTable.step plainCrypto) SessionTable.empty sessionEvents = some table ∧
      table.sessions.length ≤ maxSessions ∧ table.countOf ":1.5" ≤ maxSessionsPerCaller := by
  obtain ⟨ho, table, hr, -⟩ :
      Meets (SessionTable.step plainCrypto) (fun table event => table.orderly event = true)
          SessionTable.empty sessionEvents ∧
        ∃ table, run (SessionTable.step plainCrypto) SessionTable.empty sessionEvents =
          some table ∧ true = true := exists_run_of_checked (by decide +kernel)
  obtain ⟨-, -, hl⟩ := session_limits plainCrypto hr
  obtain ⟨ht, he, -⟩ := hl ho
  exact ⟨table, hr, ht, he ":1.5"⟩

/-- Two calls find 31 sessions of their caller before either puts one in. -/
def racingEvents : List SessionEvent :=
  ((List.range 31).flatMap fun n => openChecked n ++ openRest n) ++ openChecked 31 ++
    openChecked 32 ++ openRest 31 ++ openRest 32

theorem racing_opens_exceed_limit :
    ¬ ∀ (crypto : SessionCrypto) (events : List SessionEvent) (table : SessionTable),
      run (SessionTable.step crypto) SessionTable.empty events = some table →
      ∀ owner, table.countOf owner ≤ maxSessionsPerCaller := by
  intro h
  obtain ⟨table, hr, hc⟩ : ∃ table,
      run (SessionTable.step plainCrypto) SessionTable.empty racingEvents = some table ∧
        decide (table.countOf ":1.5" = 33) = true := exists_run_of_any (by decide +kernel)
  have hl := h plainCrypto racingEvents table hr ":1.5"
  rw [of_decide_eq_true hc] at hl
  exact absurd hl (by decide)

end FocalDesk
