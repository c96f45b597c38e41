import FocalDesk.DisplayManager.Framing

/-! Whether the greeter and PAM see one conversation. -/
namespace FocalDesk.DisplayManager
open Library List Option Function Greeter

variable {decode : List UInt8 → Option Request} {greeter next : Greeter} {txn t : ℕ}
  {history : List Entry} {emitted : ℕ → List (AuthMessageStyle × String)}

/-! What the greeter has seen. The last entry of a history comes first. -/

/-- The transaction ends with it. -/
def Entry.Ends (t : ℕ) : Entry → Prop
  | .answered transaction _ => transaction = t
  | .cancelled transaction => transaction = t
  | _ => False

theorem answered_ends (t : ℕ) (resp : Response) : (Entry.answered t resp).Ends t := rfl

def Over (t : ℕ) (history : List Entry) : Prop := ∃ entry ∈ history, entry.Ends t

/-- The messages of a transaction in the order in which they were shown. -/
def shownOf (t : ℕ) : List Entry → List (AuthMessageStyle × String)
  | [] => []
  | .shown transaction _ style message :: earlier =>
    if transaction = t then shownOf t earlier ++ [(style, message)] else shownOf t earlier
  | _ :: earlier => shownOf t earlier

def lastShown : List Entry → Option (ℕ × ℕ)
  | [] => none
  | .shown transaction number _ _ :: _ => some (transaction, number)
  | _ :: earlier => lastShown earlier

/-- An answer goes to the prompt that was shown last. A response ends a transaction whose messages
were all shown, and nothing of it comes later. -/
def Faithful (emitted : ℕ → List (AuthMessageStyle × String)) : List Entry → Prop
  | [] => True
  | .shown transaction _ _ _ :: earlier => ¬ Over transaction earlier ∧ Faithful emitted earlier
  | .delivered transaction number _ :: earlier =>
    lastShown earlier = some (transaction, number) ∧ Faithful emitted earlier
  | .answered transaction _ :: earlier => shownOf transaction earlier = emitted transaction ∧
    ¬ Over transaction earlier ∧ Faithful emitted earlier
  | .cancelled transaction :: earlier => ¬ Over transaction earlier ∧ Faithful emitted earlier
  | _ :: earlier => Faithful emitted earlier

def Entry.about : Entry → Option ℕ
  | .started transaction => some transaction
  | .shown transaction _ _ _ => some transaction
  | .delivered transaction _ _ => some transaction
  | .answered transaction _ => some transaction
  | .busy => none
  | .cancelled transaction => some transaction

theorem over_cons {e : Entry} : Over t (e :: history) ↔ e.Ends t ∨ Over t history := by
  simp [Over]

theorem Over.cons (h : Over t history) (e : Entry) : Over t (e :: history) :=
  (over_cons).mpr (.inr h)

/-- The messages of a transaction matter when it has got its response. -/
theorem Faithful.congr {emitted' : ℕ → List (AuthMessageStyle × String)}
    (h : Faithful emitted history)
    (hs : ∀ t resp, .answered t resp ∈ history → emitted' t = emitted t) :
    Faithful emitted' history := by
  induction history with
  | nil => trivial
  | cons e pre ih =>
    have he : ∀ t resp, .answered t resp ∈ pre → emitted' t = emitted t :=
      fun t resp hm => hs t resp (mem_cons_of_mem _ hm)
    cases e with
    | started txn => exact ih h he
    | shown txn num style msg => exact ⟨h.1, ih h.2 he⟩
    | delivered txn num text => exact ⟨h.1, ih h.2 he⟩
    | answered txn resp =>
      have hem := hs txn resp mem_cons_self
      exact ⟨h.1.trans hem.symm, h.2.1, ih h.2.2 he⟩
    | busy => exact ih h he
    | cancelled txn => exact ⟨h.1, ih h.2 he⟩

theorem shownOf_eq_nil (h : ∀ e ∈ history, e.about ≠ some t) :
    shownOf t history = [] := by
  induction history with
  | nil => rfl
  | cons e pre ih =>
    obtain ⟨hen, he⟩ := forall_mem_cons.mp h
    cases e with
    | shown txn num style msg =>
      have hne : txn ≠ t := fun hs => hen (congrArg some hs)
      rw [shownOf, if_neg hne, ih he]
    | started txn => exact ih he
    | delivered txn num text => exact ih he
    | answered txn resp => exact ih he
    | busy => exact ih he
    | cancelled txn => exact ih he

theorem not_over_of_fresh (h : ∀ e ∈ history, e.about ≠ some t) :
    ¬ Over t history := by
  rintro ⟨e, hm, he⟩
  cases e with
  | answered txn resp => exact h _ hm (congrArg some he)
  | cancelled txn => exact h _ hm (congrArg some he)
  | started txn => exact he
  | shown txn num style msg => exact he
  | delivered txn num text => exact he
  | busy => exact he

/-! The transaction that goes on. -/

def PamPrompt.text (prompt : PamPrompt) : AuthMessageStyle × String :=
  (prompt.style, prompt.message)

/-- A thread asks one question at a time: it is the last one of its prompts, or the one that waits
for its answer. -/
def Asks (thread : Thread) (pending : Option ℕ) : Prop :=
  match thread.phase with
  | .asking number =>
    (pending = some number ∧ thread.prompts = []) ∨
      pending = none ∧ ∃ before style message,
        thread.prompts = before ++ [⟨number, style, message, true⟩] ∧
          ∀ prompt ∈ before, prompt.reply = false
  | _ => pending = none ∧ ∀ prompt ∈ thread.prompts, prompt.reply = false

/-- The outcome is there as soon as the thread is through. -/
def Decided (thread : Thread) : Prop :=
  match thread.phase with
  | .parked => thread.outcome = .sent .success
  | .ended => ∃ message, thread.outcome = .sent (.failure message)
  | _ => thread.outcome = .empty

structure Talks (greeter : Greeter) (t : ℕ) : Prop where
  started : t < greeter.count
  goesOn : ¬ Over t greeter.history
  receiving : (greeter.threads t).receiving = true
  messages : shownOf t greeter.history ++ (greeter.threads t).prompts.map PamPrompt.text =
    (greeter.threads t).emitted
  asks : ∃ pending, greeter.pendingReply = pending.map (Prod.mk t) ∧
    Asks (greeter.threads t) pending ∧
      ∀ number, pending = some number → lastShown greeter.history = some (t, number)
  decided : Decided (greeter.threads t)

structure Conversing (greeter : Greeter) : Prop where
  faithful : Faithful (fun t => (greeter.threads t).emitted) greeter.history
  silent : ∀ t response, .answered t response ∈ greeter.history →
    (greeter.threads t).receiving = false ∨ (greeter.threads t).phase = .parked
  calm : greeter.result ≠ some .panicked ∧ greeter.completed = false
  fresh : ∀ t, greeter.count ≤ t → ∀ entry ∈ greeter.history, entry.about ≠ some t
  talks : greeter.result = none → ∀ t, greeter.current = some t → Talks greeter t
  idle : greeter.result = none → greeter.current = none → greeter.pendingReply = none
  others : greeter.result = none → ∀ t < greeter.count, greeter.current ≠ some t →
    Over t greeter.history ∧ (greeter.threads t).receiving = false

/-- What was read and what is to be written are no part of a conversation. -/
theorem Conversing.unread {next : Greeter} (h : Conversing greeter)
    (hth : next.threads = greeter.threads) (hh : next.history = greeter.history)
    (hcu : next.current = greeter.current) (hre : next.result = greeter.result)
    (hco : next.completed = greeter.completed) (hp : next.pendingReply = greeter.pendingReply)
    (hc : next.count = greeter.count) :
    Conversing next := by
  obtain ⟨coming, wire, recv, cur, completed, disabled, pendingReply, threads, count, res,
    handled, history⟩ := next
  cases hth
  cases hh
  cases hcu
  cases hre
  cases hco
  cases hp
  cases hc
  refine ⟨h.faithful, h.silent, h.calm, h.fresh, fun hr t htx => ?_, h.idle, h.others⟩
  have ht := h.talks hr t htx
  exact ⟨ht.started, ht.goesOn, ht.receiving, ht.messages, ht.asks, ht.decided⟩

theorem Greeter.dropReply_of_none (h : greeter.pendingReply = none) :
    greeter.dropReply = greeter := by
  unfold dropReply
  rw [h]

theorem Greeter.prompts_dropReply : (greeter.dropReply.threads t).prompts =
    (greeter.threads t).prompts := by
  unfold dropReply
  split
  · rfl
  · rename_i txn number hp
    dsimp only
    split
    · by_cases hs : t = txn
      · subst hs
        simp [setThread]
      · simp [setThread, hs]
    · rfl

/-- A reply is pending only for the last prompt of a thread. -/
theorem Talks.reply_of_prompts (h : Talks greeter t) (hp : (greeter.threads t).prompts ≠ []) :
    greeter.pendingReply = none := by
  obtain ⟨pend, hpe, ha, -⟩ := h.asks
  have hn : pend = none := by
    unfold Asks at ha
    split at ha
    · exact ha.elim (fun hl => absurd hl.2 hp) fun hr => hr.1
    · exact ha.1
  rw [hpe, hn]
  rfl

/-- A reply that is pending is that of a question. -/
theorem Talks.asking (h : Talks greeter t) {num : ℕ}
    (hpe : greeter.pendingReply = some (txn, num)) :
    txn = t ∧ (greeter.threads t).phase = .asking num ∧
      (greeter.threads t).prompts = [] ∧ lastShown greeter.history = some (t, num) := by
  obtain ⟨pend, hr, ha, hl⟩ := h.asks
  rw [hpe] at hr
  obtain ⟨other, rfl, hs⟩ := map_eq_some_iff.mp hr.symm
  cases hs
  unfold Asks at ha
  split at ha
  · rename_i asked hph
    obtain ⟨hnu, hp⟩ | ⟨hn, -⟩ := ha
    · cases hnu
      exact ⟨rfl, hph, hp, hl _ rfl⟩
    · cases hn
  · cases ha.1

namespace Conversing

/-- A thread that can still send a message has not got its response. -/
theorem not_answered (h : Conversing greeter) (hp : (greeter.threads t).phase = .running)
    (hr : (greeter.threads t).receiving) (resp : Response) :
    .answered t resp ∉ greeter.history := by
  intro hm
  obtain hc | hparked := h.silent t resp hm
  · rw [hr] at hc
    cases hc
  · rw [hp] at hparked
    cases hparked

/-- One thread goes on. -/
theorem setThread (h : Conversing greeter) (th : Thread)
    (he : ∀ resp, .answered t resp ∈ greeter.history → th.emitted = (greeter.threads t).emitted)
    (hsi : ∀ resp, .answered t resp ∈ greeter.history → th.receiving = false ∨ th.phase = .parked)
    (hta : greeter.result = none → greeter.current = some t → Talks (greeter.setThread t th) t)
    (ho : (greeter.threads t).receiving = false → th.receiving = false) :
    Conversing (greeter.setThread t th) := by
  have ht : ∀ other, other ≠ t →
      (greeter.setThread t th).threads other = greeter.threads other :=
    fun other hne => update_of_ne hne _ _
  have hse : (greeter.setThread t th).threads t = th := update_self _ _ _
  refine ⟨h.faithful.congr fun other resp hm => ?_, fun other resp hm => ?_, h.calm,
    h.fresh, fun hr other hc => ?_, h.idle, fun hr other hlt hc => ?_⟩
  · by_cases hs : other = t
    · subst hs
      rw [hse]
      exact he resp hm
    · rw [ht other hs]
  · by_cases hs : other = t
    · subst hs
      rw [hse]
      exact hsi resp hm
    · rw [ht other hs]
      exact h.silent other resp hm
  · by_cases hs : other = t
    · subst hs
      exact hta hr hc
    · have hp := h.talks hr other hc
      refine ⟨hp.started, hp.goesOn, ?_, ?_, ?_, ?_⟩
      all_goals rw [ht other hs]
      · exact hp.receiving
      · exact hp.messages
      · exact hp.asks
      · exact hp.decided
  · obtain ⟨hov, hre⟩ := h.others hr other hlt hc
    by_cases hs : other = t
    · subst hs
      rw [hse]
      exact ⟨hov, ho hre⟩
    · rw [ht other hs]
      exact ⟨hov, hre⟩

end Conversing

/-- The thread of the transaction that goes on may change what it waits for. -/
theorem Talks.setThread (h : Talks greeter t) {th : Thread}
    (hr : th.receiving)
    (hm : shownOf t greeter.history ++ th.prompts.map PamPrompt.text = th.emitted)
    (ha : ∀ pend, Asks (greeter.threads t) pend → Asks th pend)
    (hd : Decided th) : Talks (greeter.setThread t th) t := by
  have hs : (greeter.setThread t th).threads t = th := update_self _ _ _
  obtain ⟨pend, hp, hpr, hl⟩ := h.asks
  refine ⟨h.started, h.goesOn, ?_, ?_, ⟨pend, hp, ?_, hl⟩, ?_⟩
  all_goals rw [hs]
  · exact hr
  · exact hm
  · exact ha pend hpr
  · exact hd

theorem Decided.running {th : Thread} (h : Decided th) (hp : th.phase = .running) :
    th.outcome = .empty := by
  simpa [Decided, hp] using h

theorem asks_running {th : Thread} {pend : Option ℕ} (hp : th.phase = .running) :
    Asks th pend ↔ pend = none ∧ ∀ prompt ∈ th.prompts, prompt.reply = false := by
  simp [Asks, hp]

/-- A thread goes on. It must not end without an outcome while its transaction goes on. -/
theorem Conversing.thread (h : Conversing greeter) {ev : Event} {th : Thread}
    (hmo : ThreadMoves (greeter.threads t) ev th)
    (hv : ev = .vanish t → greeter.current ≠ some t) (hev : ev.thread = some t) :
    Conversing (greeter.setThread t th) := by
  cases hmo with
  | deaf ev hp hr =>
    exact h.setThread _ (fun _ _ => rfl) (h.silent t) (fun hru hc => by
      have ht := h.talks hru t hc
      rw [ht.receiving] at hr
      cases hr) id
  | told txn style text ask hp hr =>
    have hn := h.not_answered hp hr
    refine h.setThread _ (fun resp hm => absurd hm (hn resp))
      (fun resp hm => absurd hm (hn resp)) (fun hru hc => ?_) id
    have ht := h.talks hru t hc
    refine ht.setThread hr ?_ (fun pend ha => ?_) ?_
    · simp only [map_append, map_singleton, ← append_assoc, ht.messages]
      rfl
    · obtain ⟨rfl, hpo⟩ := (asks_running hp).mp ha
      cases ask with
      | true => exact .inr ⟨rfl, _, _, _, rfl, hpo⟩
      | false =>
        refine ⟨rfl, fun prompt hpr => ?_⟩
        obtain hpr | hpr := mem_append.mp hpr
        · exact hpo prompt hpr
        · rw [mem_singleton.mp hpr]
    · have he := ht.decided.running hp
      cases ask with
      | true => exact he
      | false => exact he
  | gone ev hp hr =>
    refine h.setThread _ (fun _ _ => rfl) (fun _ _ => .inl hr) (fun hru hc => ?_) id
    have ht := h.talks hru t hc
    rw [ht.receiving] at hr
    cases hr
  | succeeded txn hp hr =>
    have hn := h.not_answered hp hr
    refine h.setThread _ (fun _ _ => rfl) (fun resp hm => absurd hm (hn resp)) (fun hru hc => ?_) id
    have ht := h.talks hru t hc
    exact ht.setThread hr ht.messages (fun pend ha => (asks_running hp).mp ha) rfl
  | failed txn msg hp hr =>
    have hn := h.not_answered hp hr
    refine h.setThread _ (fun _ _ => rfl) (fun resp hm => absurd hm (hn resp)) (fun hru hc => ?_) id
    have ht := h.talks hru t hc
    exact ht.setThread hr ht.messages (fun pend ha => (asks_running hp).mp ha) ⟨msg, rfl⟩
  | vanished txn hp hr =>
    have hn := h.not_answered hp hr
    cases hev
    exact h.setThread _ (fun _ _ => rfl) (fun resp hm => absurd hm (hn resp))
      (fun _ hc => absurd hc (hv rfl)) id

/-! The requests. -/

namespace Conversing

/-- The loop ends, without a panic. -/
theorem leave (h : Conversing greeter) {res : GreeterPhase} (hr : res ≠ .panicked) :
    Conversing (greeter.leave res) :=
  ⟨h.faithful, h.silent, ⟨fun hs => hr (some.inj hs), h.calm.2⟩, h.fresh, nofun,
    nofun, nofun⟩

/-- An entry that ends no transaction and shows nothing. -/
theorem log (h : Conversing greeter) {e : Entry}
    (hf : Faithful (fun t => (greeter.threads t).emitted) (e :: greeter.history))
    (he : ∀ t, ¬ e.Ends t)
    (hs : ∀ t, shownOf t (e :: greeter.history) = shownOf t greeter.history)
    (hl : lastShown (e :: greeter.history) = lastShown greeter.history)
    (ha : ∀ t, e.about = some t → t < greeter.count) : Conversing (greeter.log e) := by
  have han : ∀ t resp, e ≠ .answered t resp := by
    rintro t resp rfl
    exact he t rfl
  refine ⟨hf, fun t resp hm => ?_, h.calm, fun t hc => ?_,
    fun hr t hcu => ?_, h.idle, fun hr t hlt hcu => ?_⟩
  · exact h.silent t resp ((mem_cons.mp hm).resolve_left (han t resp).symm)
  · refine forall_mem_cons.mpr ⟨fun hsa => ?_, h.fresh t hc⟩
    exact absurd (ha t hsa) (Nat.not_lt.mpr hc)
  · have ht := h.talks hr t hcu
    obtain ⟨pend, hp, has, hn⟩ := ht.asks
    refine ⟨ht.started, fun ho => ?_, ht.receiving, ?_, ⟨pend, hp, has, ?_⟩, ht.decided⟩
    · exact ht.goesOn (((over_cons).mp ho).resolve_left (he t))
    · exact (congrArg (· ++ _) (hs t)).trans ht.messages
    · exact fun num hso => hl.trans (hn num hso)
  · obtain ⟨ho, hre⟩ := h.others hr t hlt hcu
    exact ⟨ho.cons _, hre⟩

theorem send_busy (h : Conversing greeter) (sent : Bool) :
    Conversing (greeter.send sent .busy) := by
  cases sent with
  | false => exact h.leave nofun
  | true => exact h.log h.faithful (fun _ => id) (fun _ => rfl) rfl nofun

/-- A new transaction has said nothing. -/
theorem start (h : Conversing greeter) (hr : greeter.result = none) (hcu : greeter.current = none)
    (username : String) :
    Conversing (({ greeter with
      current := some greeter.count
      completed := false
      count := greeter.count + 1 }.setThread greeter.count (.start username)).log
        (.started greeter.count)) := by
  have hn := h.fresh greeter.count (Nat.le_refl _)
  have hth : ∀ t, t ≠ greeter.count → update greeter.threads greeter.count
      (.start username) t = greeter.threads t := fun t hne => update_of_ne hne _ _
  have hse : update greeter.threads greeter.count (.start username) greeter.count =
      .start username := update_self _ _ _
  have ho : ∀ t resp, .answered t resp ∈ greeter.history → t ≠ greeter.count :=
    fun t resp hm hs => hn _ hm (congrArg some hs)
  refine ⟨?_, fun t resp hm => ?_, ⟨h.calm.1, rfl⟩, fun t hc => ?_, fun _ t ht => ?_,
    fun _ ht => ?_, fun _ t hlt ht => ?_⟩
  · refine h.faithful.congr fun t resp hm => ?_
    exact congrArg Thread.emitted (hth t (ho t resp hm))
  · have hp := (mem_cons.mp hm).resolve_left nofun
    dsimp only [Greeter.log, Greeter.setThread]
    rw [hth t (ho t resp hp)]
    exact h.silent t resp hp
  · refine forall_mem_cons.mpr ⟨fun hs => ?_, h.fresh t (Nat.le_of_succ_le hc)⟩
    cases hs
    exact absurd hc (Nat.not_succ_le_self _)
  · cases ht
    refine ⟨Nat.lt_succ_self _, fun hov => ?_, ?_, ?_, ⟨none, h.idle hr hcu, ?_, nofun⟩, ?_⟩
    · exact not_over_of_fresh hn (((over_cons).mp hov).resolve_left id)
    all_goals
      dsimp only [Greeter.log, Greeter.setThread, shownOf]
      rw [hse]
    · rfl
    · rw [shownOf_eq_nil hn]
      rfl
    · exact ⟨rfl, fun _ hm => absurd hm not_mem_nil⟩
    · rfl
  · cases ht
  · have hne : t ≠ greeter.count := fun hs => ht (congrArg some hs.symm)
    have hlt' : t < greeter.count := Nat.lt_of_le_of_ne (Nat.le_of_lt_succ hlt) hne
    obtain ⟨hov, hre⟩ := h.others hr t hlt' fun hso => by
      rw [hcu] at hso
      cases hso
    exact ⟨hov.cons _, (congrArg Thread.receiving (hth t hne)).trans hre⟩

/-- The question that waits gets an answer, or none. -/
theorem reply (h : Conversing greeter) (hr : greeter.result = none) {num : ℕ}
    (hpe : greeter.pendingReply = some (t, num)) :
    greeter.current = some t ∧ (greeter.threads t).phase = .asking num ∧
      lastShown greeter.history = some (t, num) ∧
        Conversing ({ greeter with pendingReply := none }.setThread t
          { greeter.threads t with phase := .running }) := by
  obtain ⟨cur, hc⟩ : ∃ cur, greeter.current = some cur := by
    by_contra hn
    rw [h.idle hr (not_isSome_iff_eq_none.mp (mt isSome_iff_exists.mp hn))] at hpe
    cases hpe
  have hta := h.talks hr cur hc
  obtain ⟨rfl, hph, hpr, hl⟩ := hta.asking hpe
  refine ⟨hc, hph, hl, ?_⟩
  have hth : ∀ other, other ≠ t → update greeter.threads t
      { greeter.threads t with phase := .running } other = greeter.threads other :=
    fun other hne => update_of_ne hne _ _
  have ho : ∀ other resp, .answered other resp ∈ greeter.history → other ≠ t :=
    fun other resp hm hs => hta.goesOn ⟨_, hm, hs⟩
  refine ⟨h.faithful.congr fun other resp hm => ?_, fun other resp hm => ?_, h.calm,
    h.fresh, fun _ other ht => ?_, fun _ _ => rfl, fun _ other hlt ht => ?_⟩
  · exact congrArg Thread.emitted (hth other (ho other resp hm))
  · dsimp only [Greeter.setThread]
    rw [hth other (ho other resp hm)]
    exact h.silent other resp hm
  · obtain rfl : t = other := some.inj (hc.symm.trans ht)
    have he : (greeter.threads t).outcome = .empty := by
      simpa [Decided, hph] using hta.decided
    refine ⟨hta.started, hta.goesOn, ?_, ?_, ⟨none, rfl, ?_, nofun⟩, ?_⟩
    all_goals
      dsimp only [Greeter.setThread]
      rw [update_self]
    · exact hta.receiving
    · exact hta.messages
    · refine ⟨rfl, fun prompt hp => ?_⟩
      dsimp only at hp
      rw [hpr] at hp
      exact absurd hp not_mem_nil
    · exact he
  · have hne : other ≠ t := fun hs => ht (hs ▸ hc)
    dsimp only [Greeter.setThread]
    rw [hth other hne]
    exact h.others hr other hlt ht

theorem dropReply (h : Conversing greeter) (hr : greeter.result = none) :
    Conversing greeter.dropReply := by
  unfold Greeter.dropReply
  split
  · exact h
  · rename_i t number hpe
    obtain ⟨-, hp, -, hn⟩ := h.reply hr hpe
    simp only [hp, if_true]
    exact hn

theorem answer (h : Conversing greeter) (hr : greeter.result = none) (text : String) :
    Conversing (greeter.answer text) := by
  unfold Greeter.answer
  split
  · exact h
  · rename_i t number hpe
    obtain ⟨hc, hp, hl, hn⟩ := h.reply hr hpe
    simp only [hp, if_true]
    refine hn.log ⟨hl, hn.faithful⟩ (fun _ => id) (fun _ => rfl) rfl fun other ho => ?_
    cases ho
    exact (h.talks hr t hc).started

/-- What is left of a transaction that is over. -/
theorem clear_eq (h : Conversing greeter) (hr : greeter.result = none)
    (hc : greeter.current = some t) : ∃ th : Thread,
      th.emitted = (greeter.threads t).emitted ∧ th.receiving = false ∧
        greeter.clear = { greeter with
          current := none
          completed := false
          pendingReply := none
          threads := update greeter.threads t th } := by
  unfold Greeter.clear
  rw [hc]
  cases hp : greeter.pendingReply with
  | none =>
    rw [Greeter.dropReply_of_none hp]
    refine ⟨(greeter.threads t).abandon, rfl, rfl, ?_⟩
    simp only [Greeter.setThread, hp]
  | some reply =>
    obtain ⟨txn, num⟩ := reply
    obtain ⟨hs, hph, -⟩ := h.reply hr hp
    obtain rfl : t = txn := some.inj (hc.symm.trans hs)
    refine ⟨({ greeter.threads t with phase := .running } : Thread).abandon, rfl, rfl, ?_⟩
    simp [Greeter.dropReply, hp, hph, Greeter.setThread]

/-- The transaction is over, by a response or as it is cancelled. -/
theorem close (h : Conversing greeter) (hr : greeter.result = none) (hcu : greeter.current = some t)
    {e : Entry} (he : e.Ends t)
    (hf : Faithful (fun t => (greeter.threads t).emitted) (e :: greeter.history)) :
    Conversing (greeter.clear.log e) := by
  obtain ⟨th, hem, hre, hce⟩ := h.clear_eq hr hcu
  have hst := (h.talks hr t hcu).started
  have ha : e.about = some t := by
    cases e with
    | answered txn resp => exact congrArg some he
    | cancelled txn => exact congrArg some he
    | started txn => exact he.elim
    | shown txn num style msg => exact he.elim
    | delivered txn num text => exact he.elim
    | busy => exact he.elim
  rw [hce]
  refine ⟨hf.congr fun other resp hm => ?_, fun other resp hm => ?_,
    ⟨h.calm.1, rfl⟩, fun other hc => ?_, fun _ other ho => ?_, fun _ _ => rfl,
    fun _ other hlt _ => ?_⟩
  · by_cases hs : other = t
    · subst hs
      exact (congrArg Thread.emitted (update_self _ _ _)).trans hem
    · exact congrArg Thread.emitted (update_of_ne hs _ _)
  · dsimp only [Greeter.log]
    by_cases hs : other = t
    · subst hs
      rw [update_self]
      exact .inl hre
    · rw [update_of_ne hs]
      refine h.silent other resp ((mem_cons.mp hm).resolve_left fun hen => ?_)
      rw [← hen] at he
      exact hs he
  · refine forall_mem_cons.mpr ⟨fun hs => ?_, h.fresh other hc⟩
    obtain rfl : t = other := some.inj (ha.symm.trans hs)
    exact absurd hst (Nat.not_lt.mpr hc)
  · cases ho
  · dsimp only [Greeter.log]
    by_cases hs : other = t
    · subst hs
      rw [update_self]
      exact ⟨(over_cons).mpr (.inl he), hre⟩
    · rw [update_of_ne hs]
      have hne : greeter.current ≠ some other := fun ho =>
        hs (some.inj (ho.symm.trans hcu))
      obtain ⟨hov, hcl⟩ := h.others hr other hlt hne
      exact ⟨hov.cons _, hcl⟩

theorem cancelSession (h : Conversing greeter) (hr : greeter.result = none) :
    Conversing greeter.cancelSession := by
  unfold Greeter.cancelSession
  split
  · rename_i hn
    unfold Greeter.clear
    rw [hn]
    exact h.dropReply hr
  · rename_i t hc
    exact h.close hr hc rfl ⟨(h.talks hr t hc).goesOn, h.faithful⟩

theorem createSession (h : Conversing greeter) (hr : greeter.result = none) (username : String)
    (sent : Bool) : Conversing (greeter.createSession username sent) := by
  unfold Greeter.createSession
  split
  · exact h.send_busy sent
  · rename_i hc
    exact h.start hr hc username

theorem again (h : Conversing greeter) : Conversing greeter.again :=
  h.unread rfl rfl rfl rfl rfl rfl rfl

theorem handle (h : Conversing greeter) (hr : greeter.result = none) (req : Request) (sent : Bool)
    : Conversing (greeter.handle req sent) := by
  let logged : Greeter := { greeter with handled := greeter.handled ++ [req] }
  have hl : Conversing logged := h.unread rfl rfl rfl rfl rfl rfl rfl
  cases req with
  | createSession username => exact hl.createSession hr username sent
  | postAuthResponse resp =>
    cases resp with
    | none => exact hl.dropReply hr
    | some text => exact hl.answer hr text
  | cancelSession => exact hl.cancelSession hr
  | power act => exact hl

end Conversing

/-! The two branches of PAM. -/

/-- When its next prompt is taken, the thread has that one or the others to wait for. -/
theorem asks_shown {th : Thread} {prompt : PamPrompt} {prompts : List PamPrompt}
    (hp : th.prompts = prompt :: prompts) {pend : Option ℕ} (h : Asks th pend) :
    Asks { th with prompts } (if prompt.reply then some prompt.number else none) := by
  unfold Asks at h ⊢
  dsimp only
  split at h
  · obtain ⟨-, hn⟩ | ⟨-, pre, style, msg, hpr, hs⟩ := h
    · rw [hn] at hp
      cases hp
    · rw [hp] at hpr
      cases pre with
      | nil =>
        cases hpr
        exact .inl ⟨rfl, rfl⟩
      | cons fst pre =>
        obtain ⟨rfl, rfl⟩ := List.cons.inj hpr
        obtain ⟨hf, hr⟩ := forall_mem_cons.mp hs
        exact .inr ⟨by simp [hf], pre, style, msg, rfl, hr⟩
  · obtain ⟨hf, hr⟩ := forall_mem_cons.mp (hp ▸ h.2)
    exact ⟨by simp [hf], hr⟩

namespace Conversing

theorem shown (h : Conversing greeter) (hr : greeter.result = none) (hcu : greeter.current = some t)
    {prompt : PamPrompt} {prompts : List PamPrompt}
    (hp : (greeter.threads t).prompts = prompt :: prompts) (sent : Bool) :
    Conversing (Greeter.send
      { greeter.setThread t { greeter.threads t with prompts } with
        pendingReply := if prompt.reply then some (t, prompt.number) else none }
      sent (.shown t prompt.number prompt.style prompt.message)) := by
  have hta := h.talks hr t hcu
  obtain ⟨pend, -, ha, -⟩ := hta.asks
  have hth : ∀ other, other ≠ t → update greeter.threads t
      { greeter.threads t with prompts } other = greeter.threads other :=
    fun other hne => update_of_ne hne _ _
  have he : ∀ other, (update greeter.threads t
      { greeter.threads t with prompts } other).emitted = (greeter.threads other).emitted := by
    intro other
    by_cases hs : other = t
    · subst hs
      rw [update_self]
    · rw [hth other hs]
  have hot : ∀ other resp, .answered other resp ∈ greeter.history → other ≠ t :=
    fun other resp hme hs => hta.goesOn ⟨_, hme, hs⟩
  have hf : Faithful (fun other => (update greeter.threads t
      { greeter.threads t with prompts } other).emitted) greeter.history :=
    h.faithful.congr fun other _ _ => he other
  have hsi : ∀ other resp, .answered other resp ∈ greeter.history →
      (update greeter.threads t { greeter.threads t with prompts } other).receiving =
        false ∨ (update greeter.threads t
          { greeter.threads t with prompts } other).phase = .parked := by
    intro other resp hme
    rw [hth other (hot other resp hme)]
    exact h.silent other resp hme
  cases sent with
  | false => exact ⟨hf, hsi, ⟨nofun, h.calm.2⟩, h.fresh, nofun, nofun, nofun⟩
  | true =>
    refine ⟨⟨hta.goesOn, hf⟩, fun other resp hme => ?_, h.calm,
      fun other hc => ?_, fun _ other ht => ?_, fun _ ht => ?_, fun _ other hlt ht => ?_⟩
    · exact hsi other resp ((mem_cons.mp hme).resolve_left nofun)
    · refine forall_mem_cons.mpr ⟨fun hs => ?_, h.fresh other hc⟩
      cases hs
      exact absurd hta.started (Nat.not_lt.mpr hc)
    · obtain rfl : t = other := some.inj (hcu.symm.trans ht)
      refine ⟨hta.started, fun ho => ?_, ?_, ?_,
        ⟨if prompt.reply then some prompt.number else none, ?_, ?_, fun num hnu => ?_⟩, ?_⟩
      · exact hta.goesOn (((over_cons).mp ho).resolve_left id)
      · simpa [Greeter.send, Greeter.log, Greeter.setThread] using hta.receiving
      · have hm := hta.messages
        rw [hp, map_cons] at hm
        simpa [Greeter.send, Greeter.log, Greeter.setThread, shownOf, PamPrompt.text] using hm
      · simp only [Greeter.send, Greeter.log, if_true]
        split <;> rfl
      · have hsh := asks_shown hp ha
        simpa [Greeter.send, Greeter.log, Greeter.setThread] using hsh
      · split at hnu
        · cases hnu
          rfl
        · cases hnu
      · have hd := hta.decided
        simpa [Greeter.send, Greeter.log, Greeter.setThread, Decided] using hd
    · have hn : greeter.current = none := ht
      rw [hcu] at hn
      cases hn
    · have hne : other ≠ t := fun hs => ht (hs ▸ hcu)
      obtain ⟨ho, hre⟩ := h.others hr other hlt ht
      exact ⟨ho.cons _, (congrArg Thread.receiving (hth other hne)).trans hre⟩

/-- All messages were shown when the outcome is taken. -/
theorem faithful_answered (h : Conversing greeter) (hr : greeter.result = none)
    (hc : greeter.current = some t) (hp : (greeter.threads t).prompts = []) (resp : Response)
    : Faithful (fun t => (greeter.threads t).emitted) (.answered t resp :: greeter.history) := by
  have ht := h.talks hr t hc
  have hm := ht.messages
  rw [hp, map_nil, append_nil] at hm
  exact ⟨hm, ht.goesOn, h.faithful⟩

theorem succeeded (h : Conversing greeter) (hr : greeter.result = none)
    (hcu : greeter.current = some t) (hp : (greeter.threads t).prompts = [])
    (ho : (greeter.threads t).outcome = .sent .success) :
    Conversing ((greeter.log (.answered t .sessionStarted)).leave (.authenticated t)) := by
  have ht := h.talks hr t hcu
  have hpa : (greeter.threads t).phase = .parked := by
    have hd := ht.decided
    unfold Decided at hd
    split at hd
    · assumption
    · obtain ⟨msg, hf⟩ := hd
      rw [ho] at hf
      cases hf
    · rw [ho] at hd
      cases hd
  refine ⟨h.faithful_answered hr hcu hp _, fun other resp hmem => ?_,
    ⟨nofun, h.calm.2⟩, fun other hc => ?_, nofun, nofun, nofun⟩
  · obtain hs | hmem := mem_cons.mp hmem
    · cases hs
      exact .inr hpa
    · exact h.silent other resp hmem
  · refine forall_mem_cons.mpr ⟨fun hs => ?_, h.fresh other hc⟩
    cases hs
    exact absurd ht.started (Nat.not_lt.mpr hc)

theorem not_closed (h : Conversing greeter) (hr : greeter.result = none)
    (hcu : greeter.current = some t) : (greeter.threads t).outcome ≠ .closed := by
  intro hc
  have hd := (h.talks hr t hcu).decided
  unfold Decided at hd
  split at hd
  · rw [hc] at hd
    cases hd
  · obtain ⟨msg, hf⟩ := hd
    rw [hc] at hf
    cases hf
  · rw [hc] at hd
    cases hd

end Conversing

theorem Greeter.dropReply_log (e : Entry) :
    (greeter.log e).dropReply = greeter.dropReply.log e := by
  unfold dropReply log
  dsimp only
  split
  · rfl
  · split <;> rfl

theorem Greeter.clear_log (e : Entry) :
    (greeter.log e).clear = greeter.clear.log e := by
  unfold clear
  rw [dropReply_log, show (greeter.log e).current = greeter.current from rfl]
  cases greeter.current <;> rfl

/-! Runs. -/

/-- The outcome is taken when all messages were, and the thread of the transaction that goes on
does not end without one. -/
def Orderly (greeter : Greeter) : Event → Prop
  | .outcome _ => ∀ t, greeter.current = some t → (greeter.threads t).prompts = []
  | .vanish t => greeter.current ≠ some t
  | _ => True

theorem conversing_step {ev : Event} (hst : greeter.step decode ev = some next)
    (he : Orderly greeter ev) (h : Conversing greeter) : Conversing next := by
  have hs : ∀ {wire coming recv}, Conversing { greeter with wire, coming, recv } :=
    h.unread rfl rfl rfl rfl rfl rfl rfl
  cases moves_of_step hst with
  | arrived n => exact hs
  | thread ev txn thread ht hco hm =>
    refine h.thread hm (fun hv => ?_) ht
    subst hv
    exact he
  | left ev wire res hr hrs =>
    refine hs.leave fun hp => ?_
    rcases hrs with rfl | rfl | rfl <;> cases hp
  | pending n sent recv hr hn hw hre => exact hs
  | handled n sent body req hr hn hw hre hd =>
    have hre : Conversing { greeter with wire := greeter.wire.drop n } := hs
    exact (hre.handle hr req sent).again
  | shown sent txn prompt prompts hr hc hpr =>
    have hso : (greeter.threads txn).prompts = prompt :: prompts := by
      rw [← prompts_dropReply, hpr]
    have hno := (h.talks hr txn hc).reply_of_prompts (by simp [hso])
    rw [dropReply_of_none hno]
    exact (h.shown hr hc hso sent).again
  | succeeded txn hr hc ho =>
    exact h.succeeded hr hc (he txn hc) ho
  | failed txn msg hr hc ho =>
    have hf := h.faithful_answered hr hc (he txn hc) (.authError msg)
    rw [clear_log]
    exact (h.close hr hc (answered_ends _ _) hf).again
  | gone txn hr hc ho =>
    exact absurd ho (h.not_closed hr hc)
  | panicked txn hr hc ho =>
    exact absurd ho (h.not_closed hr hc)

theorem conversing_start (coming : List UInt8) : Conversing (.start coming) := by
  refine ⟨trivial, nofun, ⟨nofun, rfl⟩, fun _ _ _ hm => ?_, nofun, fun _ _ => rfl, nofun⟩
  exact absurd hm not_mem_nil

/-- What the greeter and PAM can rely on. -/
structure Fidelity (greeter : Greeter) : Prop where
  faithful : Faithful (fun t => (greeter.threads t).emitted) greeter.history
  messages : greeter.result = none → ∀ t, greeter.current = some t →
    shownOf t greeter.history ++ (greeter.threads t).prompts.map PamPrompt.text =
      (greeter.threads t).emitted
  one : greeter.result = none → ∀ t < greeter.count,
    greeter.current = some t ∧ ¬ Over t greeter.history ∨
      greeter.current ≠ some t ∧ Over t greeter.history
  responds : greeter.result = none → ∀ t, greeter.current = some t →
    (greeter.threads t).phase = .parked ∨ (greeter.threads t).phase = .ended →
      (∃ next, greeter.showPrompt true = some next) ∨
        (greeter.threads t).prompts = [] ∧ ∃ next, greeter.takeOutcome true = some next
  reaches : greeter.result = none → ∀ t number text, greeter.current = some t →
    (greeter.threads t).phase = .asking number → (greeter.threads t).prompts = [] →
      (greeter.answer text).history = .delivered t number text :: greeter.history
  accepts : greeter.result = none → greeter.current = none → ∀ username sent,
    (greeter.createSession username sent).history = .started greeter.count :: greeter.history
  cancels : greeter.result = none → greeter.cancelSession.current = none
  calm : greeter.result ≠ some .panicked

namespace Conversing

theorem responds (h : Conversing greeter) (hr : greeter.result = none)
    (hc : greeter.current = some t)
    (hov : (greeter.threads t).phase = .parked ∨ (greeter.threads t).phase = .ended) :
    (∃ next, greeter.showPrompt true = some next) ∨
      (greeter.threads t).prompts = [] ∧ ∃ next, greeter.takeOutcome true = some next := by
  cases hp : (greeter.threads t).prompts with
  | cons prompt prompts =>
    refine .inl ?_
    simp only [showPrompt, hc, prompts_dropReply, hp]
    exact ⟨_, rfl⟩
  | nil =>
    refine .inr ⟨rfl, ?_⟩
    have hd := (h.talks hr t hc).decided
    obtain hpa | hended := hov
    · have ho : (greeter.threads t).outcome = .sent .success := by
        simpa [Decided, hpa] using hd
      simp only [takeOutcome, hc, ho]
      exact ⟨_, rfl⟩
    · have ho : ∃ msg, (greeter.threads t).outcome = .sent (.failure msg) := by
        simpa [Decided, hended] using hd
      obtain ⟨msg, ho⟩ := ho
      simp only [takeOutcome, hc, ho]
      exact ⟨_, rfl⟩

theorem reaches (h : Conversing greeter) (hr : greeter.result = none)
    (hc : greeter.current = some t) {num : ℕ} (hp : (greeter.threads t).phase = .asking num)
    (hpr : (greeter.threads t).prompts = []) (text : String) :
    (greeter.answer text).history = .delivered t num text :: greeter.history := by
  obtain ⟨pend, hpe, ha, -⟩ := (h.talks hr t hc).asks
  have hn : pend = some num := by
    simp only [Asks, hp, hpr, and_true] at ha
    refine ha.resolve_right ?_
    rintro ⟨-, pre, style, msg, he, -⟩
    simp at he
  rw [hn] at hpe
  simp [Greeter.answer, hpe, hp, Greeter.log, Greeter.setThread]

theorem fidelity (h : Conversing greeter) : Fidelity greeter := by
  refine ⟨h.faithful, fun hr t hc => (h.talks hr t hc).messages,
    fun hr t hlt => ?_, fun hr t hc ho => h.responds hr hc ho,
    fun hr t num text hc hph hp =>
      h.reaches hr hc hph hp text,
    fun hr hc username sent => ?_, fun hr => ?_, h.calm.1⟩
  · by_cases hc : greeter.current = some t
    · exact .inl ⟨hc, (h.talks hr t hc).goesOn⟩
    · exact .inr ⟨hc, (h.others hr t hlt hc).1⟩
  · simp [Greeter.createSession, hc, Greeter.log, Greeter.setThread]
  · cases hc : greeter.current with
    | none =>
      have hre := h.idle hr hc
      simp [Greeter.cancelSession, Greeter.clear, hc, Greeter.dropReply, hre]
    | some t =>
      obtain ⟨th, -, -, hcl⟩ := h.clear_eq hr hc
      simp [Greeter.cancelSession, hc, hcl, Greeter.log]

end Conversing

/-- The greeter gets what PAM says, and PAM gets the answers, when the outcome comes last and the
thread of the transaction does not end without one. -/
theorem conversation_faithful (decode : List UInt8 → Option Request) (coming : List UInt8)
    (events : List Event) (final : Greeter)
    (hevents : Meets (Greeter.step decode) Orderly (.start coming) events)
    (hrun : run (Greeter.step decode) (.start coming) events = some final) : Fidelity final :=
  (run_invariant_of_meets conversing_step hevents hrun (conversing_start coming)).fidelity

/-! Conversations of one greeter. -/

/-- The password is wrong, and a second transaction begins. -/
def wrongPassword : List Event :=
  readFrame createText ++ [.message 0 .info "Welcome" false, .message 0 .secret "Password: " true,
    .prompt true, .prompt true] ++ readFrame answerText ++
      [.message 0 .error "Wrong" false, .fail 0 "authentication failed", .prompt true,
        .outcome true] ++ readFrame createText

def wrongPasswordFrames : List (List UInt8) := [createText, answerText, createText]

instance (greeter : Greeter) : (event : Event) → Decidable (Orderly greeter event)
  | .outcome _ => inferInstanceAs (Decidable (∀ t ∈ greeter.current,
      (greeter.threads t).prompts = []))
  | .vanish t => inferInstanceAs (Decidable (greeter.current ≠ some t))
  | .arrive _ | .read _ _ | .readFailed | .outcomeGone | .exited | .sigterm | .message _ _ _ _
  | .succeed _ | .fail _ _ | .prompt _ => isTrue trivial

theorem wrong_password_faithful : ∃ final : Greeter,
    run (Greeter.step decodeText) (.start (frames wrongPasswordFrames)) wrongPassword =
      some final ∧ final.current = some 1 ∧ Fidelity final := by
  have he : (checkedRun (step decodeText) Orderly
      (.start (frames wrongPasswordFrames)) wrongPassword).any
        (fun final => decide (final.current = some 1)) = true := by decide +kernel
  obtain ⟨hm, final, hr, hc⟩ := exists_run_of_checked he
  exact ⟨final, hr, of_decide_eq_true hc, conversation_faithful decodeText
    (frames wrongPasswordFrames) wrongPassword final hm hr⟩

/-- The account is locked, and the outcome is taken before the message about it. -/
def lostMessage : List Event :=
  readFrame createText ++ [.message 0 .error "Account locked" false,
    .fail 0 "authentication failed", .outcome true]

/-- The thread of PAM ends without an outcome, and the greeter goes on to answer. -/
def noOutcome : List Event :=
  readFrame createText ++ [.vanish 0, .outcomeGone] ++ readFrame answerText ++ [.outcomeGone]

/-- The greeter never sees a message, or the loop panics. -/
theorem conversation_broken :
    (∃ final : Greeter, run (Greeter.step decodeText) (.start (frames wrongPasswordFrames))
      lostMessage = some final ∧ ¬ Fidelity final) ∧
    ∃ final : Greeter, run (Greeter.step decodeText) (.start (frames wrongPasswordFrames))
      noOutcome = some final ∧ final.result = some .panicked := by
  constructor
  · have he : (run (step decodeText) (.start (frames wrongPasswordFrames))
        lostMessage).any (fun final => decide (final.history =
          [.answered 0 (.authError "authentication failed"), .started 0] ∧
            (final.threads 0).emitted = [(.error, "Account locked")])) = true := by decide +kernel
    obtain ⟨final, hr, hl⟩ := exists_run_of_any he
    obtain ⟨hh, hem⟩ := of_decide_eq_true hl
    refine ⟨final, hr, fun hfi => ?_⟩
    have hf := hfi.faithful
    rw [hh] at hf
    have hs : [] = (final.threads 0).emitted := hf.1
    rw [hem] at hs
    cases hs
  · have he : (run (step decodeText) (.start (frames wrongPasswordFrames))
        noOutcome).any (fun final => decide (final.result = some .panicked)) = true := by
      decide +kernel
    obtain ⟨final, hr, hp⟩ := exists_run_of_any he
    exact ⟨final, hr, of_decide_eq_true hp⟩

end FocalDesk.DisplayManager
