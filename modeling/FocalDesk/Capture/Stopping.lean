import FocalDesk.Capture.Sessions

/-! How a session is stopped: its client gets the answer as the last event. -/
namespace FocalDesk.Capture
open Library List Option Function Bool Nat

variable {B S : Type} {remote next : Remote B S} {c d sessionId : ℕ} {client : Client B S}
  {message msg : RemoteOutbound B S}

/-- The messages that the thread has in hand or in its queue. -/
def Client.onTheWay (client : Client B S) : List (RemoteOutbound B S) :=
  match client.phase with
  | .refusing message => message :: client.incoming
  | .greeting _ message => message :: client.incoming
  | .sending _ message => message :: client.incoming
  | _ => client.incoming

/-- The session of a client goes on. -/
structure Live (remote : Remote B S) (c sessionId : ℕ) : Prop where
  session : ∃ session, remote.sessions = [(sessionId, session)] ∧ session.outbound = c
  quiet : ∀ message ∈ (remote.clients c).onTheWay, message.event.terminal = false

/-- The session is stopped, and the answer is the last message on the way. -/
structure Stopping (remote : Remote B S) (c sessionId : ℕ) : Prop where
  gone : ∀ entry ∈ remote.sessions, entry.2.outbound ≠ c
  answer : ∃ front last, (remote.clients c).onTheWay = front ++ [last] ∧
    last.event = .captureStopped sessionId ∧ ∀ message ∈ front, message.event.terminal = false

/-- The last event that the client got. -/
def Client.gotStopped (client : Client B S) (sessionId : ℕ) : Prop :=
  ∃ last, client.received.getLast? = some last ∧ last.event = .captureStopped sessionId

def Reader.of (reader : Reader) (sessionId : ℕ) : Prop :=
  reader = .running sessionId ∨ reader = .stopped sessionId

theorem Event.terminal_of_started {ev : Event S} (h : ev.startedSession = some sessionId) :
    ev.terminal = false := by
  cases ev with
  | captureStarted id oid width h' scale transform => rfl
  | frameReady frame => cases h
  | captureStopped id => cases h
  | error msg => cases h

structure Answered (remote : Remote B S) : Prop where
  greeted : ∀ c id message, (remote.clients c).phase = .greeting id message →
    message.event.startedSession = some id
  ids : ∀ id, .disconnected id ∈ remote.commands ∨ .stop id ∈ remote.commands →
    id < remote.nextSessionId
  running : ∀ c id, (remote.clients c).reader = .running id → id < remote.nextSessionId
  known : ∀ c id, (remote.clients c).knows = some id → id < remote.nextSessionId
  own : ∀ c id d, (remote.clients c).knows = some id →
    (remote.clients d).reader = .running id → d = c
  reading : ∀ c id, (remote.clients c).reader.of id → (remote.clients c).alive = true →
    (remote.clients c).knows = some id
  served : ∀ c id, (remote.clients c).knows = some id → (remote.clients c).connected = true →
    .disconnected id ∉ remote.commands ∧ (Live remote c id ∨ Stopping remote c id)
  stopping : ∀ c id, (remote.clients c).reader = .stopped id →
    (remote.clients c).alive = true → (remote.clients c).connected = true →
      .stop id ∈ remote.commands ∨ Stopping remote c id
  closed : ∀ c id, (remote.clients c).reader.of id → (remote.clients c).alive = false →
    (remote.clients c).connected = true → (remote.clients c).gotStopped id

/-! The threads. -/

/-- What is on the way goes on, or its first message was written. -/
def Passes (before after : List (RemoteOutbound B S)) : Prop :=
  after = before ∨ ∃ message, before = message :: after ∧ message.event.terminal = false

theorem Live.passes (h : Live remote c sessionId) (hs : next.sessions = remote.sessions)
    (hp : Passes (remote.clients c).onTheWay (next.clients c).onTheWay) :
    Live next c sessionId := by
  refine ⟨hs ▸ h.session, fun msg hm => h.quiet msg ?_⟩
  obtain heq | ⟨fst, heq, -⟩ := hp
  · exact heq ▸ hm
  · rw [heq]
    exact mem_cons_of_mem _ hm

theorem Stopping.passes (h : Stopping remote c sessionId) (hs : next.sessions = remote.sessions)
    (hp : Passes (remote.clients c).onTheWay (next.clients c).onTheWay) :
    Stopping next c sessionId := by
  refine ⟨hs ▸ h.gone, ?_⟩
  obtain ⟨front, last, hw, hl, hf⟩ := h.answer
  obtain heq | ⟨fst, heq, hfi⟩ := hp
  · exact ⟨front, last, heq.trans hw, hl, hf⟩
  · rw [hw] at heq
    rcases front with _ | ⟨head, front⟩
    · -- The answer itself ends the thread.
      obtain ⟨rfl, -⟩ := cons_eq_cons.mp heq
      rw [hl] at hfi
      cases hfi
    · obtain ⟨-, hr⟩ := cons_eq_cons.mp heq
      exact ⟨front, last, hr.symm, hl, fun msg hm =>
        hf msg (mem_cons_of_mem _ hm)⟩

/-- While a thread goes on there is no other one, so only its client and what it knows change. -/
theorem Answered.of_alive (h : Answered remote)
    (hse : ∀ d, (remote.clients d).alive → d + 1 = remote.accepted) (hal : (remote.clients c).alive)
    (hsl : next.clients c = client) (ho : ∀ d, d ≠ c → next.clients d = remote.clients d)
    (hm : remote.nextSessionId ≤ next.nextSessionId)
    (hi : ∀ id, .disconnected id ∈ next.commands ∨ .stop id ∈ next.commands →
      id < next.nextSessionId)
    (hg : ∀ id msg, client.phase = .greeting id msg →
      msg.event.startedSession = some id)
    (hr : ∀ id, client.reader = .running id → id < next.nextSessionId)
    (hkn : ∀ id, client.knows = some id → id < next.nextSessionId ∧
      ∀ d, d ≠ c → (remote.clients d).reader ≠ .running id)
    (hre : ∀ id, client.reader.of id → client.alive → client.knows = some id)
    (hsr : ∀ id, client.knows = some id → client.connected →
      .disconnected id ∉ next.commands ∧ (Live next c id ∨ Stopping next c id))
    (hst : ∀ id, client.reader = .stopped id → client.alive →
      client.connected → .stop id ∈ next.commands ∨ Stopping next c id)
    (hcl : ∀ id, client.reader.of id → client.alive = false → client.connected →
      client.gotStopped id) : Answered next := by
  subst hsl
  have ha : ∀ d, (next.clients d).alive → d = c := by
    intro d hd
    by_contra hne
    rw [ho d hne] at hd
    have hd := hse d hd
    have hc := hse c hal
    omega
  have hk : ∀ d id, (next.clients d).knows = some id → d = c := fun d id hid =>
    ha d (Client.alive_of_knows hid)
  refine ⟨fun d id msg hp => ?_, hi, fun d id hid => ?_, fun d id hid => ?_,
    fun d id e hid he => ?_, fun d id hid hd => ?_, fun d id hid hd => ?_,
    fun d id hid hd => ?_, fun d id hid hd hco => ?_⟩
  · by_cases hs : d = c
    · exact hg id msg (hs ▸ hp)
    · exact h.greeted d id msg (ho d hs ▸ hp)
  · by_cases hs : d = c
    · exact hr id (hs ▸ hid)
    · exact (h.running d id (ho d hs ▸ hid)).trans_le hm
  · obtain rfl := hk d id hid
    exact (hkn id hid).1
  · obtain rfl := hk d id hid
    by_contra hne
    exact (hkn id hid).2 e hne (ho e hne ▸ he)
  · obtain rfl := ha d hd
    exact hre id hid hd
  · obtain rfl := hk d id hid
    exact hsr id hid hd
  · obtain rfl := ha d hd
    exact hst id hid hd
  · by_cases hs : d = c
    · subst hs
      exact hcl id hid hd hco
    · rw [ho d hs] at hid hd hco ⊢
      exact h.closed d id hid hd hco

/-- What a thread that goes on makes of its client. -/
structure Goes (remote : Remote B S) (c : ℕ) (client : Client B S) : Prop where
  alive : (remote.clients c).alive = true
  greeted : ∀ id message, client.phase = .greeting id message →
    message.event.startedSession = some id
  reader : client.reader = (remote.clients c).reader ∨ client.reader = .absent ∨
    ∃ id, client.reader = .running id ∧ (remote.clients c).knows = some id ∧ client.knows = some id
  connected : client.connected = true → (remote.clients c).connected = true
  knows : ∀ id, client.knows = some id → (remote.clients c).knows = some id ∧
    Passes (remote.clients c).onTheWay client.onTheWay
  goes : ∀ id, client.alive = true → (remote.clients c).knows = some id → client.knows = some id
  closed : ∀ id, client.alive = false → client.connected = true →
    client.reader = (remote.clients c).reader → client.reader.of id → client.gotStopped id
  gone : client.alive = false → client.reader = (remote.clients c).reader ∨ client.reader = .absent

/-- A thread goes on, and may send a last command. -/
theorem Answered.thread (h : Answered remote) (ho : Owned remote) (hg : Goes remote c client)
    (new : List RemoteCommand) (hn : ∀ cmd ∈ new, (∃ oid, cmd = .start oid c) ∨
      ∃ id, cmd = .disconnected id ∧ (remote.clients c).knows = some id ∧ client.alive = false) :
    Answered { remote with
      clients := update remote.clients c client, commands := remote.commands ++ new } := by
  have hdi : ∀ id, .disconnected id ∈ new → (remote.clients c).knows = some id ∧
      client.alive = false := by
    intro id hm
    obtain ⟨oid, hst⟩ | ⟨other, hot, hid, hde⟩ := hn _ hm
    · cases hst
    · cases hot
      exact ⟨hid, hde⟩
  have hso : ∀ id, .stop id ∉ new := by
    intro id hm
    obtain ⟨oid, hst⟩ | ⟨other, hot, -⟩ := hn _ hm
    · cases hst
    · cases hot
  have hw : ∀ id, client.knows = some id → Passes (remote.clients c).onTheWay
      (update remote.clients c client c).onTheWay := by
    intro id hid
    rw [update_self]
    exact (hg.knows id hid).2
  refine h.of_alive ho.serial hg.alive (update_self ..)
    (fun d hd => update_of_ne hd ..) le_rfl (fun id hid => ?_) hg.greeted
    (fun id hid => ?_) (fun id hid => ?_) (fun id hid hd => ?_) (fun id hid hc => ?_)
    (fun id hid hd hc => ?_) fun id hid hd hc => ?_
  · simp only [mem_append] at hid
    obtain (hid | hid) | (hid | hid) := hid
    · exact h.ids id (.inl hid)
    · exact h.known c id (hdi id hid).1
    · exact h.ids id (.inr hid)
    · exact absurd hid (hso id)
  · obtain hsa | habsent | ⟨other, hot, hk, -⟩ := hg.reader
    · exact h.running c id (hsa ▸ hid)
    · cases habsent.symm.trans hid
    · cases hot.symm.trans hid
      exact h.known c id hk
  · have hk := (hg.knows id hid).1
    exact ⟨h.known c id hk, fun d hd hr => hd (h.own c id d hk hr)⟩
  · obtain hsa | habsent | ⟨other, hot, -, hk⟩ := hg.reader
    · exact hg.goes id hd (h.reading c id (hsa ▸ hid) hg.alive)
    · rw [habsent] at hid
      obtain hid | hid := hid <;> cases hid
    · rw [hot] at hid
      obtain hid | hid := hid <;> cases hid
      exact hk
  · obtain ⟨hno, hse⟩ := h.served c id (hg.knows id hid).1 (hg.connected hc)
    refine ⟨fun hm => ?_, hse.imp (fun hl => hl.passes rfl (hw id hid))
      fun hs => hs.passes rfl (hw id hid)⟩
    obtain hm | hm := mem_append.mp hm
    · exact hno hm
    · cases (Client.alive_of_knows hid).symm.trans (hdi id hm).2
  · have hp : (remote.clients c).reader = .stopped id := by
      obtain hsa | habsent | ⟨other, hot, -⟩ := hg.reader
      · exact hsa ▸ hid
      · cases habsent.symm.trans hid
      · cases hot.symm.trans hid
    have hk := hg.goes id hd (h.reading c id (.inr hp) hg.alive)
    exact (h.stopping c id hp hg.alive (hg.connected hc)).imp
      (fun hm => mem_append_left _ hm) fun hs => hs.passes rfl (hw id hk)
  · obtain hsa | habsent := hg.gone hd
    · exact hg.closed id hd hc hsa hid
    · rw [habsent] at hid
      obtain hid | hid := hid <;> cases hid

theorem Answered.setClient (h : Answered remote) (ho : Owned remote) (hg : Goes remote c client)
    : Answered (remote.setClient c client) := by
  have ht := h.thread ho hg [] (by simp)
  rwa [append_nil] at ht

theorem Goes.idle (ha : (remote.clients c).alive) (hp : (remote.clients c).knows = none)
    (hno : client.alive) (hn : client.knows = none) (hr : client.reader = (remote.clients c).reader)
    (hc : client.connected = (remote.clients c).connected) : Goes remote c client where
  alive := ha
  greeted id msg hphase := by simp [Client.knows, hphase] at hn
  reader := .inl hr
  connected hcon := hc ▸ hcon
  knows id hid := by cases hn.symm.trans hid
  goes id _ hid := by cases hp.symm.trans hid
  closed id hd := by cases hno.symm.trans hd
  gone _ := .inl hr

theorem Goes.serving (hpr : (remote.clients c).knows = some sessionId)
    (hk : client.knows = some sessionId)
    (hg : ∀ id msg, client.phase = .greeting id msg →
      msg.event.startedSession = some id)
    (hp : Passes (remote.clients c).onTheWay client.onTheWay)
    (hr : client.reader = (remote.clients c).reader)
    (hc : client.connected = (remote.clients c).connected) : Goes remote c client where
  alive := Client.alive_of_knows hpr
  greeted := hg
  reader := .inl hr
  connected hcon := hc ▸ hcon
  knows id hid := ⟨hpr.trans (hk.symm.trans hid), hp⟩
  goes id _ hid := hk.trans (hpr.symm.trans hid)
  closed id hd := by cases (Client.alive_of_knows hk).symm.trans hd
  gone _ := .inl hr

/-- A thread without a session returns. -/
theorem Answered.finish (h : Answered remote) (ho : Owned remote) (ha : (remote.clients c).alive)
    (hkn : (remote.clients c).knows = none) (hc : client.connected → (remote.clients c).connected)
    (hr : client.reader = (remote.clients c).reader) :
    Answered (remote.setClient c client.finish) := by
  refine h.setClient ho ⟨ha, nofun, .inl hr, hc, fun id hid => ?_, fun id hd => ?_,
    fun id _ _ _ hof => ?_, fun _ => .inl hr⟩
  · cases hid
  · cases hd
  · have hk := h.reading c id (hr ▸ hof) ha
    rw [hkn] at hk
    cases hk

/-- A thread with a session returns, and its client is not connected or got the answer. -/
theorem Answered.leave (h : Answered remote) (ho : Owned remote)
    (hk : (remote.clients c).knows = some sessionId)
    (hc : client.connected → (remote.clients c).connected)
    (hr : client.reader = (remote.clients c).reader)
    (hgo : client.connected → client.gotStopped sessionId) :
    Answered (remote.leave c sessionId client) := by
  have ha := Client.alive_of_knows hk
  have hg : Goes remote c client.finish := by
    refine ⟨ha, nofun, .inl hr, hc, fun id hid => ?_, fun id hd => ?_,
      fun id _ hco _ hof => ?_, fun _ => .inl hr⟩
    · cases hid
    · cases hd
    · have hkn := h.reading c id (hr ▸ hof) ha
      obtain rfl : sessionId = id := some.inj (hk.symm.trans hkn)
      exact hgo hco
  exact h.thread ho hg [.disconnected sessionId] fun cmd hcm =>
    .inr ⟨sessionId, mem_singleton.mp hcm, hk, rfl⟩

/-- A client that knows no session and has no reader takes a place. -/
theorem Answered.others (h : Answered remote) {clients : ℕ → Client B S} {accepted : ℕ}
    (ho : ∀ d, d ≠ c → clients d = remote.clients d) (hk : (clients c).knows = none)
    (hg : ∀ id msg, (clients c).phase ≠ .greeting id msg)
    (hre : ∀ id, ¬ (clients c).reader.of id) :
    Answered { remote with clients, accepted } := by
  have hw : ∀ d id, (clients d).knows = some id → clients d = remote.clients d := by
    intro d id hid
    refine ho d ?_
    rintro rfl
    rw [hk] at hid
    cases hid
  have hr : ∀ d id, (clients d).reader.of id → clients d = remote.clients d := by
    intro d id hid
    refine ho d ?_
    rintro rfl
    exact hre id hid
  refine ⟨fun d id msg hp => ?_, h.ids, fun d id hid => ?_, fun d id hid => ?_,
    fun d id e hid he => ?_, fun d id hid hd => ?_, fun d id hid hd => ?_,
    fun d id hid hd hc => ?_, fun d id hid hd hc => ?_⟩
  · by_cases hs : d = c
    · subst hs
      exact absurd hp (hg id msg)
    · exact h.greeted d id msg (ho d hs ▸ hp)
  · exact h.running d id (hr d id (.inl hid) ▸ hid)
  · exact h.known d id (hw d id hid ▸ hid)
  · exact h.own d id e (hw d id hid ▸ hid) (hr e id (.inl he) ▸ he)
  · simp only [hr d id hid] at hid hd ⊢
    exact h.reading d id hid hd
  · have hs := hw d id hid
    simp only [hs] at hid hd
    obtain ⟨hno, hsa⟩ := h.served d id hid hd
    refine ⟨hno, hsa.imp (fun hl => ?_) fun hst => ?_⟩
    · exact hl.passes rfl (.inl (congrArg Client.onTheWay hs))
    · exact hst.passes rfl (.inl (congrArg Client.onTheWay hs))
  · have hs := hr d id (.inr hid)
    simp only [hs] at hid hd hc
    exact (h.stopping d id hid hd hc).imp_right fun hst =>
      hst.passes rfl (.inl (congrArg Client.onTheWay hs))
  · simp only [hr d id hid] at hid hd hc ⊢
    exact h.closed d id hid hd hc

theorem Answered.accept (h : Answered remote) (hs : remote.accept = some next) :
    Answered next := by
  obtain ⟨-, rfl⟩ := accept_eq_some hs
  have hc : ∀ d, d ≠ remote.accepted →
      (remote.setClient remote.accepted ⟨.reading, .absent, [], [], true⟩).clients d =
        remote.clients d := fun d hd => update_of_ne hd _ _
  have hn : (remote.setClient remote.accepted ⟨.reading, .absent, [], [], true⟩).clients
      remote.accepted = ⟨.reading, .absent, [], [], true⟩ := update_self _ _ _
  refine h.others hc ?_ ?_ ?_
  · simp [hn, Client.knows]
  · simp [hn]
  · simp [hn, Reader.of]

theorem Answered.request (h : Answered remote) (ho : Owned remote) {req : Option Request}
    (hs : remote.request c req = some next) : Answered next := by
  have hf : (remote.clients c).phase = .reading →
      (remote.clients c).alive ∧ (remote.clients c).knows = none :=
    fun hp => ⟨by simp [Client.alive, hp], by simp [Client.knows, hp]⟩
  cases requested_request hs with
  | failed hp =>
    obtain ⟨ha, hk⟩ := hf hp
    exact h.finish ho ha hk (fun hc => hc) rfl
  | refused hp =>
    obtain ⟨ha, hk⟩ := hf hp
    exact h.setClient ho (.idle ha hk rfl rfl rfl rfl)
  | started hp oid =>
    obtain ⟨ha, hk⟩ := hf hp
    have hg : Goes remote c { remote.clients c with phase := .awaiting, incoming := [] } :=
      .idle ha hk rfl rfl rfl rfl
    exact h.thread ho hg _ fun cmd hcm => .inl ⟨_, mem_singleton.mp hcm⟩

theorem Answered.recv (h : Answered remote) (ho : Owned remote) (hst : remote.recv c = some next)
    : Answered next := by
  cases received_recv hst with
  | greeting id msg incoming hp hi hs =>
    have hk : (remote.clients c).knows = some id := by
      simpa [Client.knows, hp, hi] using hs
    have hw : (remote.clients c).onTheWay = msg :: incoming := by
      simp [Client.onTheWay, hp, hi]
    refine h.setClient ho (.serving hk rfl ?_ (.inl hw.symm) rfl rfl)
    intro other found hg
    cases hg
    exact hs
  | refusing msg incoming hp hi hs =>
    have hk : (remote.clients c).knows = none := by
      simpa [Client.knows, hp, hi] using hs
    exact h.setClient ho (.idle (by simp [Client.alive, hp]) hk rfl rfl rfl rfl)
  | abandoned hp hi hse =>
    exact h.finish ho (by simp [Client.alive, hp])
      (by simp [Client.knows, hp, hi]) (fun hc => hc) rfl
  | sending id msg incoming hp hi =>
    have hk : (remote.clients c).knows = some id := by simp [Client.knows, hp]
    have hw : (remote.clients c).onTheWay = msg :: incoming := by
      simp [Client.onTheWay, hp, hi]
    exact h.setClient ho (.serving hk rfl (fun _ _ hg => by cases hg) (.inl hw.symm) rfl rfl)
  | closed id hp hi hse =>
    have hk : (remote.clients c).knows = some id := by simp [Client.knows, hp]
    have hw : (remote.clients c).onTheWay = [] := by
      simp [Client.onTheWay, hp, hi]
    refine h.leave ho hk (fun hc => hc) rfl fun hc => ?_
    -- A live session has a sender, and a stopped one an answer on the way.
    obtain ⟨-, hl | hsp⟩ := h.served c id hk hc
    · obtain ⟨sess, hss, hou⟩ := hl.session
      have hso : remote.hasSender c := by
        simp [Remote.hasSender, hss, hou]
      rw [hse] at hso
      cases hso
    · obtain ⟨front, last, ha, -⟩ := hsp.answer
      rw [hw] at ha
      simp at ha

theorem Answered.write (h : Answered remote) (ho : Owned remote) {wr : Written}
    {spn : Bool} (hpo : wr ≠ .tooLarge)
    (hs : remote.write c wr spn = some next) : Answered next := by
  cases wrote_write hs with
  | refused msg hp =>
    exact h.finish ho (by simp [Client.alive, hp]) (by simp [Client.knows, hp]) (fun hc => hc) rfl
  | unheard msg hp =>
    exact h.finish ho (by simp [Client.alive, hp]) (by simp [Client.knows, hp])
      (fun hc => (and_eq_true_iff.mp hc).1) rfl
  | greeted id msg hp spn =>
    have hk : (remote.clients c).knows = some id := by simp [Client.knows, hp]
    have hw : (remote.clients c).onTheWay = msg :: (remote.clients c).incoming := by
      simp [Client.onTheWay, hp]
    have hq := Event.terminal_of_started (h.greeted c id msg hp)
    refine h.setClient ho ⟨Client.alive_of_knows hk, fun _ _ hg => ?_, ?_, fun hc => hc,
      fun other hot => ⟨hk.trans hot, .inr ⟨msg, hw, hq⟩⟩,
      fun other _ hot => hk.symm.trans hot, fun _ hd => ?_, fun hd => ?_⟩
    · cases hg
    · cases spn with
      | true => exact .inr (.inr ⟨id, rfl, hk, rfl⟩)
      | false => exact .inr (.inl rfl)
    · cases hd
    · cases hd
  | ended id msg hp ht =>
    have hk : (remote.clients c).knows = some id := by simp [Client.knows, hp]
    have hw : (remote.clients c).onTheWay = msg :: (remote.clients c).incoming := by
      simp [Client.onTheWay, hp]
    refine h.leave ho hk (fun hc => hc) rfl fun hc => ?_
    obtain ⟨-, hl | hst⟩ := h.served c id hk hc
    · have hq := hl.quiet msg (hw ▸ mem_cons_self)
      rw [ht] at hq
      cases hq
    · obtain ⟨front, last, ha, hla, hf⟩ := hst.answer
      rw [hw] at ha
      rcases front with _ | ⟨head, front⟩
      · obtain ⟨rfl, -⟩ := cons_eq_cons.mp ha
        exact ⟨msg, getLast?_concat, hla⟩
      · obtain ⟨rfl, -⟩ := cons_eq_cons.mp ha
        have hq := hf _ mem_cons_self
        rw [ht] at hq
        cases hq
  | sent id msg hp ht =>
    have hk : (remote.clients c).knows = some id := by simp [Client.knows, hp]
    have hw : (remote.clients c).onTheWay = msg :: (remote.clients c).incoming := by
      simp [Client.onTheWay, hp]
    exact h.setClient ho (.serving hk rfl (fun _ _ hg => by cases hg) (.inr ⟨msg, hw, ht⟩)
      rfl rfl)
  | failed id hk hp hwr =>
    have hb : wr = .broken := by
      cases wr with
      | done => exact absurd rfl hwr
      | tooLarge => exact absurd rfl hpo
      | broken => rfl
    refine h.leave ho hk (fun hc => (and_eq_true_iff.mp hc).1) rfl fun hc => ?_
    simp [hb] at hc

/-- The thread is where it was. -/
structure SameThread (client client' : Client B S) : Prop where
  phase : client'.phase = client.phase
  incoming : client'.incoming = client.incoming
  received : client'.received = client.received

namespace SameThread

variable {client' : Client B S}

theorem knows (h : SameThread client client') : client'.knows = client.knows := by
  unfold Client.knows
  rw [h.phase, h.incoming]

theorem alive (h : SameThread client client') : client'.alive = client.alive := by
  unfold Client.alive
  rw [h.phase]

theorem onTheWay (h : SameThread client client') : client'.onTheWay = client.onTheWay := by
  unfold Client.onTheWay
  rw [h.phase, h.incoming]

theorem gotStopped (h : SameThread client client') (hg : client.gotStopped sessionId) :
    client'.gotStopped sessionId := by
  unfold Client.gotStopped
  rwa [h.received]

end SameThread

/-- The reader read the request to stop, or it failed. -/
theorem Answered.reader (h : Answered remote) (hru : (remote.clients c).reader = .running sessionId)
    {clients : ℕ → Client B S} (hs : ∀ d, SameThread (remote.clients d) (clients d))
    (ho : ∀ d, d ≠ c → clients d = remote.clients d) {cmd : RemoteCommand}
    (hr : (clients c).reader = .stopped sessionId ∧
        (clients c).connected = (remote.clients c).connected ∧ cmd = .stop sessionId ∨
      (clients c).reader = .ended ∧ (clients c).connected = false ∧ cmd = .disconnected sessionId) :
    Answered { remote with clients, commands := remote.commands ++ [cmd] } := by
  have hof : ∀ d id, (clients d).reader.of id → (remote.clients d).reader.of id := by
    intro d id hid
    by_cases hd : d = c
    · subst hd
      obtain ⟨hst, -⟩ | ⟨hen, -⟩ := hr
      · rw [hst] at hid
        obtain hid | hid := hid <;> cases hid
        exact .inl hru
      · rw [hen] at hid
        obtain hid | hid := hid <;> cases hid
    · exact ho d hd ▸ hid
  have hsr : ∀ d id, (clients d).reader = .running id →
      (remote.clients d).reader = .running id := by
    intro d id hid
    by_cases hd : d = c
    · subst hd
      obtain ⟨hst, -⟩ | ⟨hen, -⟩ := hr
      · rw [hst] at hid
        cases hid
      · rw [hen] at hid
        cases hid
    · exact ho d hd ▸ hid
  have hcn : ∀ d, (clients d).connected → (remote.clients d).connected := by
    intro d hd
    by_cases hc : d = c
    · subst hc
      obtain ⟨-, hco, -⟩ | ⟨-, hco, -⟩ := hr
      · exact hco ▸ hd
      · rw [hco] at hd
        cases hd
    · exact ho d hc ▸ hd
  have hcm : cmd = .stop sessionId ∨ cmd = .disconnected sessionId :=
    hr.imp (fun hso => hso.2.2) fun hen => hen.2.2
  have hsa : ∀ d id, Live remote d id ∨ Stopping remote d id →
      Live { remote with clients, commands := remote.commands ++ [cmd] } d id ∨
        Stopping { remote with clients, commands := remote.commands ++ [cmd] } d id :=
    fun d id hsa => hsa.imp (fun hl => hl.passes rfl (.inl (hs d).onTheWay))
      fun hstopping => hstopping.passes rfl (.inl (hs d).onTheWay)
  refine ⟨fun d id msg hp => ?_, fun id hid => ?_, fun d id hid => ?_,
    fun d id hid => ?_, fun d id e hid he => ?_, fun d id hid hd => ?_, fun d id hid hd => ?_,
    fun d id hid hd hco => ?_, fun d id hid hd hco => ?_⟩
  · exact h.greeted d id msg ((hs d).phase ▸ hp)
  · simp only [mem_append, mem_singleton] at hid
    obtain (hid | hid) | (hid | hid) := hid
    · exact h.ids id (.inl hid)
    · obtain rfl | rfl := hcm <;> cases hid
      exact h.running c _ hru
    · exact h.ids id (.inr hid)
    · obtain rfl | rfl := hcm <;> cases hid
      exact h.running c _ hru
  · exact h.running d id (hsr d id hid)
  · exact h.known d id ((hs d).knows ▸ hid)
  · exact h.own d id e ((hs d).knows ▸ hid) (hsr e id he)
  · exact (hs d).knows.trans (h.reading d id (hof d id hid) ((hs d).alive ▸ hd))
  · obtain ⟨hno, hpr⟩ := h.served d id ((hs d).knows ▸ hid) (hcn d hd)
    refine ⟨fun hm => ?_, hsa d id hpr⟩
    obtain hm | hm := mem_append.mp hm
    · exact hno hm
    · -- The reader that failed is the one of this client.
      obtain ⟨-, -, rfl⟩ | ⟨-, hco, rfl⟩ := hr
      · cases mem_singleton.mp hm
      · cases mem_singleton.mp hm
        have how := h.own d _ c ((hs d).knows ▸ hid) hru
        subst how
        rw [hco] at hd
        cases hd
  · by_cases hdc : d = c
    · subst hdc
      obtain ⟨hst, -, rfl⟩ | ⟨hen, -, -⟩ := hr
      · rw [hst] at hid
        cases hid
        exact .inl (mem_append_right _ mem_cons_self)
      · rw [hen] at hid
        cases hid
    · obtain hm | hstopping := h.stopping d id (ho d hdc ▸ hid) ((hs d).alive ▸ hd)
        (hcn d hco)
      · exact .inl (mem_append_left _ hm)
      · exact .inr (hstopping.passes rfl (.inl (hs d).onTheWay))
  · exact (hs d).gotStopped
      (h.closed d id (hof d id hid) ((hs d).alive ▸ hd) (hcn d hco))

theorem sameThread_update (remote : Remote B S) (c : ℕ) (reader : Reader) (connected : Bool)
    (d : ℕ) : SameThread (remote.clients d) (update remote.clients c
      { remote.clients c with reader, connected } d) := by
  by_cases hd : d = c
  · subst hd
    rw [update_self]
    exact ⟨rfl, rfl, rfl⟩
  · rw [update_of_ne hd]
    exact ⟨rfl, rfl, rfl⟩

theorem Answered.read (h : Answered remote) {req : Option Request}
    (hs : remote.read c req = some next) : Answered next := by
  cases hasRead_read hs with
  | ignored => exact h
  | stopped id hr =>
    refine h.reader hr (sameThread_update remote c (.stopped id) _)
      (fun d hd => update_of_ne hd _ _) (.inl ?_)
    exact ⟨by rw [update_self], by rw [update_self], rfl⟩
  | ended id hr =>
    refine h.reader hr (sameThread_update remote c .ended false)
      (fun d hd => update_of_ne hd _ _) (.inr ?_)
    exact ⟨by rw [update_self], by rw [update_self], rfl⟩

/-! The compositor. -/

/-- Commands are taken and sessions go, and no client gets a message. -/
theorem Answered.withdraw (h : Answered remote) (hcm : ∀ cmd ∈ next.commands,
      cmd ∈ remote.commands) (hi : next.nextSessionId = remote.nextSessionId)
    (hc : next.clients = remote.clients)
    (hs : ∀ c id, (remote.clients c).knows = some id → (remote.clients c).connected →
      Live remote c id ∨ Stopping remote c id → Live next c id ∨ Stopping next c id)
    (hst : ∀ c id, (remote.clients c).knows = some id → (remote.clients c).connected →
      (.stop id ∈ remote.commands ∨ Stopping remote c id) →
        .stop id ∈ next.commands ∨ Stopping next c id) : Answered next := by
  refine ⟨?_, fun id hid => ?_, ?_, ?_, ?_, ?_, fun d id hid hd => ?_,
    fun d id hid hd hco => ?_, ?_⟩
  · rw [hc]
    exact h.greeted
  · rw [hi]
    exact h.ids id (hid.imp (hcm _) (hcm _))
  · rw [hc, hi]
    exact h.running
  · rw [hc, hi]
    exact h.known
  · rw [hc]
    exact h.own
  · rw [hc]
    exact h.reading
  · rw [hc] at hid hd
    obtain ⟨hno, hp⟩ := h.served d id hid hd
    exact ⟨fun hm => hno (hcm _ hm), hs d id hid hd hp⟩
  · rw [hc] at hid hd hco
    exact hst d id (h.reading d id (.inr hid) hd) hco (h.stopping d id hid hd hco)
  · rw [hc]
    exact h.closed

theorem Stopping.withdraw (h : Stopping remote c sessionId) (hc : next.clients = remote.clients)
    (hs : ∀ e ∈ next.sessions, e ∈ remote.sessions) :
    Stopping next c sessionId :=
  ⟨fun e he => h.gone e (hs e he), hc ▸ h.answer⟩

theorem Live.withdraw (h : Live remote c sessionId) (hc : next.clients = remote.clients)
    (hs : next.sessions = remote.sessions) : Live next c sessionId :=
  ⟨hs ▸ h.session, hc ▸ h.quiet⟩

variable {rest : List RemoteCommand}

/-- Nothing changes that the clients see, but commands may be taken. -/
theorem Answered.same (h : Answered remote) (hcm : ∀ cmd ∈ next.commands,
      cmd ∈ remote.commands) (hso : ∀ id, .stop id ∈ remote.commands → .stop id ∈ next.commands)
    (hi : next.nextSessionId = remote.nextSessionId) (hc : next.clients = remote.clients)
    (hse : next.sessions = remote.sessions) : Answered next := by
  have hs : ∀ c id, Stopping remote c id → Stopping next c id := fun c id hs =>
    hs.withdraw hc fun e he => hse ▸ he
  exact h.withdraw hcm hi hc
    (fun c id _ _ hst => hst.imp (fun hl => hl.withdraw hc hse)
      (hs c id)) fun c id _ _ hst => hst.imp (hso id) (hs c id)

/-- The session of a client that is gone does not go on. -/
theorem not_live_of_gone {sess : RemoteSession}
    (hs : remote.sessions = [(sessionId, sess)])
    (hg : (remote.clients sess.outbound).alive = false)
    (hk : (remote.clients c).knows = some d) : ¬ Live remote c d := by
  intro hl
  obtain ⟨found, hf, rfl⟩ := hl.session
  rw [hs] at hf
  cases hf
  cases (Client.alive_of_knows hk).symm.trans hg

theorem Answered.drainDisconnected (h : Answered remote) (ho : Owned remote)
    (hcm : remote.commands = .disconnected sessionId :: rest) :
    Answered (({ remote with commands := rest } : Remote B S).removeSession sessionId) := by
  obtain ⟨sessions, broker, heq, -, hm⟩ := removeSession_cases ho.held sessionId
  have hk : ∀ c id, (remote.clients c).knows = some id →
      (remote.clients c).connected → id ≠ sessionId := by
    rintro c id hid hco rfl
    exact (h.served c id hid hco).1 (hcm ▸ mem_cons_self)
  have hsu : ∀ e ∈ (remote.removeSession sessionId).sessions, e ∈ remote.sessions := by
    rw [heq]
    exact fun e he => ((hm e).mp he).1
  have hc : (remote.removeSession sessionId).clients = remote.clients := by rw [heq]
  rw [removeSession_commands]
  refine h.withdraw (fun cmd hcd => hcm ▸ mem_cons_of_mem _ hcd) ?_
    hc (fun c id hid hco hst => ?_) fun c id hid hco hst => ?_
  · rw [heq]
  · refine hst.imp (fun hl => ?_) fun hs => hs.withdraw hc hsu
    obtain ⟨sess, hse, -⟩ := hl.session
    refine hl.withdraw hc ?_
    -- The session of the client is another one.
    have hg : getKey sessionId remote.sessions = none := by
      rw [hse, getKey_cons, if_neg (hk c id hid hco).symm]
      rfl
    simp only [Remote.removeSession, hg]
  · refine hst.imp (fun hso => ?_) fun hs => hs.withdraw hc hsu
    rw [hcm] at hso
    exact (mem_cons.mp hso).resolve_left fun hsa => by cases hsa

theorem Client.knows_push (h : client.knows = some sessionId) (msg : RemoteOutbound B S) :
    Client.knows { client with incoming := client.incoming ++ [msg] } = some sessionId := by
  obtain ⟨phase, reader, incoming, recv, connected⟩ := client
  cases phase with
  | awaiting =>
    rcases incoming with _ | ⟨fst, rest⟩
    · simp [Client.knows] at h
    · simpa [Client.knows] using h
  | reading => simp [Client.knows] at h
  | refusing msg => simp [Client.knows] at h
  | returned => simp [Client.knows] at h
  | greeting id msg => exact h
  | serving id => exact h
  | sending id msg => exact h

theorem Client.onTheWay_push (client : Client B S) (msg : RemoteOutbound B S) :
    Client.onTheWay { client with incoming := client.incoming ++ [msg] } =
      client.onTheWay ++ [msg] := by
  obtain ⟨phase, reader, incoming, recv, connected⟩ := client
  cases phase <;> rfl

/-- A client that knows its session gets a message. -/
theorem Answered.push (h : Answered remote) (ho : Owned remote)
    (hk : (remote.clients d).knows = some sessionId) (msg : RemoteOutbound B S)
    (hcm : ∀ cmd ∈ next.commands, cmd ∈ remote.commands)
    (hi : next.nextSessionId = remote.nextSessionId)
    (hc : next.clients = update remote.clients d
      { remote.clients d with incoming := (remote.clients d).incoming ++ [msg] })
    (hst : (remote.clients d).connected → Live next d sessionId ∨ Stopping next d sessionId)
    (hso : (remote.clients d).reader = .stopped sessionId →
      (remote.clients d).connected →
        .stop sessionId ∈ next.commands ∨ Stopping next d sessionId) : Answered next := by
  have hse : next.clients d =
      { remote.clients d with incoming := (remote.clients d).incoming ++ [msg] } := by
    rw [hc, update_self]
  have hn := Client.knows_push hk msg
  have ha := Client.alive_of_knows hk
  have hs : ∀ id, (remote.clients d).knows = some id → sessionId = id := fun id hid =>
    some.inj (hk.symm.trans hid)
  refine h.of_alive ho.serial ha hse
    (fun e he => by rw [hc, update_of_ne he]) hi.ge (fun id hid => ?_)
    (h.greeted d) (fun id hid => ?_) (fun id hid => ?_) (fun id hid _ => ?_) (fun id hid hco => ?_)
    (fun id hid _ hco => ?_) fun id _ hd => ?_
  · rw [hi]
    exact h.ids id (hid.imp (hcm _) (hcm _))
  · rw [hi]
    exact h.running d id hid
  · obtain rfl := some.inj (hn.symm.trans hid)
    rw [hi]
    exact ⟨h.known d _ hk, fun e he hr => he (h.own d _ e hk hr)⟩
  · obtain rfl := hs id (h.reading d id hid ha)
    exact hn
  · obtain rfl := some.inj (hn.symm.trans hid)
    exact ⟨fun hm => (h.served d _ hk hco).1 (hcm _ hm), hst hco⟩
  · obtain rfl := hs id (h.reading d id (.inr hid) ha)
    exact hso hid hco
  · cases ha.symm.trans hd

/-- One of a few sessions is the only one. -/
theorem Held.eq_singleton {sessions : List (ℕ × RemoteSession)}
    {consumers : List (ℕ × CaptureConsumer B S)} (h : Held sessions consumers)
    {sess : RemoteSession} (hg : getKey sessionId sessions = some sess) :
    sessions = [(sessionId, sess)] := by
  obtain ⟨rfl, -⟩ | ⟨id, found, cons, rfl, -⟩ := h
  · cases hg
  · rw [getKey_cons] at hg
    split at hg
    · rename_i hid
      cases hg
      rw [hid]
    · cases hg

/-- A session that is stopped has a place in the queue of its client. -/
theorem Answered.drainStop (h : Answered remote) (ho : Owned remote)
    (hcm : remote.commands = .stop sessionId :: rest)
    (hpl : ∀ sess, getKey sessionId remote.sessions = some sess →
      (remote.clients sess.outbound).incoming.length < outboundQueueDepth) :
    Answered (({ remote with commands := rest } : Remote B S).stopSession sessionId) := by
  have hr : ∀ cmd ∈ rest, cmd ∈ remote.commands := fun cmd hcd =>
    hcm ▸ mem_cons_of_mem _ hcd
  have hla : ∀ id, .stop id ∈ remote.commands → id = sessionId ∨ .stop id ∈ rest := by
    intro id hst
    rw [hcm] at hst
    obtain hst | hst := mem_cons.mp hst
    · cases hst
      exact .inl rfl
    · exact .inr hst
  unfold Remote.stopSession
  dsimp only
  rcases hg : getKey sessionId remote.sessions with _ | sess
  · -- The session is gone already.
    refine h.withdraw hr rfl rfl (fun c id _ _ hsa => ?_) fun c id hid hc hsa => ?_
    · exact hsa.imp (fun hl => hl.withdraw rfl rfl) fun hs =>
        hs.withdraw rfl fun _ he => he
    · obtain hst | hs := hsa
      · obtain rfl | hst := hla id hst
        · obtain ⟨-, hl | hs⟩ := h.served c id hid hc
          · obtain ⟨sess, hse, -⟩ := hl.session
            rw [hse, getKey_cons, if_pos rfl] at hg
            cases hg
          · exact .inr (hs.withdraw rfl fun _ he => he)
        · exact .inl hst
      · exact .inr (hs.withdraw rfl fun _ he => he)
  · have hse := ho.held.eq_singleton hg
    have hre : ({ remote with commands := rest } : Remote B S).removeSession sessionId =
        { remote with
          commands := rest
          sessions := []
          broker := remote.broker.remove sess.consumerId } := by
      simp [Remote.removeSession, hse, removeKey, getKey_cons]
    rw [hre]
    dsimp only
    obtain hk | ⟨hgo, -, -⟩ := ho.known (sessionId, sess) (by simp [hse])
    · have hal := Client.alive_of_knows hk
      let gone : Remote B S := { remote with
        commands := rest
        sessions := []
        broker := remote.broker.remove sess.consumerId }
      have ha : (gone.clients sess.outbound).alive := hal
      have hp : (gone.trySend sess.outbound ⟨.captureStopped sessionId, none⟩).1 =
          gone.setClient sess.outbound { remote.clients sess.outbound with
            incoming := (remote.clients sess.outbound).incoming ++
              [⟨.captureStopped sessionId, none⟩] } :=
        congrArg Prod.fst (trySend_of_place ha (hpl sess hg))
      have hs : (remote.clients sess.outbound).connected →
          Stopping (gone.setClient sess.outbound { remote.clients sess.outbound with
            incoming := (remote.clients sess.outbound).incoming ++
              [⟨.captureStopped sessionId, none⟩] }) sess.outbound sessionId := by
        intro hc
        refine ⟨fun e he => ?_, ?_⟩
        · cases he
        obtain ⟨-, hl | hpr⟩ := h.served sess.outbound sessionId hk hc
        · refine ⟨_, ⟨.captureStopped sessionId, none⟩, ?_, rfl, hl.quiet⟩
          simp only [Remote.setClient, update_self]
          exact Client.onTheWay_push _ _
        · exact absurd rfl (hpr.gone (sessionId, sess) (by simp [hse]))
      rw [hp]
      exact h.push ho hk _ hr rfl rfl (fun hc => .inr (hs hc)) fun _ hc => .inr (hs hc)
    · have hu : ∀ msg, (({ remote with
          commands := rest
          sessions := []
          broker := remote.broker.remove sess.consumerId } : Remote B S).trySend
            sess.outbound msg).1 = { remote with
          commands := rest
          sessions := []
          broker := remote.broker.remove sess.consumerId } := by
        intro msg
        have hd : (remote.clients sess.outbound).alive = false := hgo
        simp only [Remote.trySend, hd, if_true]
      rw [hu]
      have hn : ∀ c id, (remote.clients c).knows = some id → ¬ Live remote c id :=
        fun c id => not_live_of_gone hse hgo
      refine h.withdraw hr rfl rfl (fun c id hid _ hsa => ?_) fun c id hid hc hsa => ?_
      · exact .inr ((hsa.resolve_left (hn c id hid)).withdraw rfl (by simp))
      · obtain ⟨-, hpr⟩ := h.served c id hid hc
        exact .inr ((hpr.resolve_left (hn c id hid)).withdraw rfl (by simp))

theorem Answered.exportFrames (h : Answered remote) (ho : Owned remote) (readback : ℕ → Option ℕ)
    (sealed : ℕ → Bool) :
    Answered (remote.exportFrames readback sealed) := by
  obtain ⟨hsa, -⟩ | ⟨id, sess, cons, res, hs, -, -, he, heq⟩ :=
    exportFrames_cases ho.held readback sealed
  · rw [hsa]
    exact h
  · rw [heq]
    have hke : ∀ cons, Answered (remote.withConsumer sess.consumerId cons) :=
      fun cons => h.same (fun _ hcm => hcm) (fun _ hstop => hstop) rfl rfl rfl
    cases he with
    | idle hno => exact hke _
    | lost frame hf hp => exact hke _
    | full frame hf len hp ha hfu => exact hke _
    | sent frame hf len hp ha hpl =>
      have hk : (remote.clients sess.outbound).knows = some id := by
        obtain hk | ⟨hg, -, -⟩ := ho.known (id, sess) (by simp [hs])
        · exact hk
        · have hd : (remote.clients sess.outbound).alive = false := hg
          rw [ha] at hd
          cases hd
      have hn : ∀ other, ¬ Stopping remote sess.outbound other := fun other hpr =>
        hpr.gone (id, sess) (by simp [hs]) rfl
      rw [if_neg Bool.false_ne_true]
      refine h.push ho hk (frameMessage id len frame) (fun _ hcm => hcm) rfl rfl
        (fun hco => .inl ⟨⟨sess, hs, rfl⟩, ?_⟩) fun hsp hco => .inl ?_
      · obtain ⟨-, hl | hpr⟩ := h.served sess.outbound id hk hco
        · intro msg hm
          simp only [Remote.setClient, update_self] at hm
          rw [Client.onTheWay_push] at hm
          obtain hm | hm := mem_append.mp hm
          · exact hl.quiet msg hm
          · rw [mem_singleton.mp hm]
            rfl
        · exact absurd hpr (hn id)
      · exact (h.stopping sess.outbound id hsp ha hco).resolve_right (hn id)
    | gone frame hf len hp ha =>
      have hge : getKey id remote.sessions = some sess := by
        rw [hs, getKey_cons, if_pos rfl]
      have hc : ((remote.withConsumer sess.consumerId
          { cons with queue := [] }).removeSession id).clients = remote.clients := by
        simp [Remote.removeSession, Remote.withConsumer, hge]
      have hno : ((remote.withConsumer sess.consumerId
          { cons with queue := [] }).removeSession id).sessions = [] := by
        simp [Remote.removeSession, Remote.withConsumer, hs, removeKey, getKey_cons]
      have hcd : ((remote.withConsumer sess.consumerId
          { cons with queue := [] }).removeSession id).commands = remote.commands :=
        commands_removeSession _ _
      have hi : ((remote.withConsumer sess.consumerId
          { cons with queue := [] }).removeSession id).nextSessionId = remote.nextSessionId := by
        simp [Remote.removeSession, Remote.withConsumer, hge]
      rw [if_pos rfl]
      refine h.withdraw (fun cmd hcm => hcd ▸ hcm) hi hc
        (fun c other hot _ hst => ?_) fun c other hot hco hst => ?_
      · exact .inr ((hst.resolve_left (not_live_of_gone hs ha hot)).withdraw hc
          (by simp [hno]))
      · rw [hcd]
        exact hst.imp_right fun hso => hso.withdraw hc (by simp [hno])

/-- A session starts with a number that no other one had. -/
theorem Answered.drainStart (h : Answered remote) (ho : Owned remote) {oid : ℕ}
    (hcm : remote.commands = .start oid c :: rest)
    (hma : remote.nextSessionId < 2 ^ 64 - 1) :
    Answered (({ remote with commands := rest } : Remote B S).startSession oid c) := by
  obtain ⟨hse, hc, hp, hi, -⟩ := ho.before_start hcm
  have ha : (remote.clients c).alive := by simp [Client.alive, hp]
  have hk : (remote.clients c).knows = none := by simp [Client.knows, hp, hi]
  have hr : ∀ id, ¬ (remote.clients c).reader.of id := by
    intro id hid
    have hkn := h.reading c id hid ha
    rw [hk] at hkn
    cases hkn
  have hre : Answered { remote with commands := rest } := by
    refine h.same (fun cmd hcd => hcm ▸ mem_cons_of_mem _ hcd) (fun id hst => ?_) rfl rfl rfl
    rw [hcm] at hst
    exact (mem_cons.mp hst).resolve_left fun he => by cases he
  obtain ⟨msg, heq⟩ | ⟨broker, cid, std, -, hs, heq⟩ :=
    startSession_cases ({ remote with commands := rest } : Remote B S) oid hse hc ha hi
  · rw [heq]
    refine hre.others (fun d hd => update_of_ne hd _ _) ?_ ?_ ?_
    · simp [Client.knows, hp, Event.startedSession]
    · simp [hp]
    · simpa using hr
  · rw [heq]
    have hsu : saturatingAdd remote.nextSessionId 1 = remote.nextSessionId + 1 := by
      unfold saturatingAdd
      omega
    have hk : ∀ id, Client.knows { remote.clients c with incoming := [⟨std, none⟩] } = some id →
        id = remote.nextSessionId := by
      intro id hid
      simp only [Client.knows, hp, head?_cons, bind_some, hs, some.injEq] at hid
      exact hid.symm
    refine hre.of_alive ho.serial ha (update_self ..)
      (fun d hd => update_of_ne hd ..) (Nat.le_of_lt ?_) (fun id hid => ?_)
      (fun id found hf => ?_) (fun id hid => ?_) (fun id hid => ?_) (fun id hid _ => ?_)
      (fun id hid _ => ?_) (fun id hid _ => ?_) fun id hid => ?_ <;> simp only [hsu] at *
    · exact lt_succ_self _
    · exact lt_succ_of_lt (hre.ids id hid)
    · simp [hp] at hf
    · exact absurd (.inl hid) (hr id)
    · obtain rfl := hk id hid
      exact ⟨lt_succ_self _, fun d _ hru => Nat.lt_irrefl _ (h.running d _ hru)⟩
    · exact absurd hid (hr id)
    · obtain rfl := hk id hid
      refine ⟨fun hme => Nat.lt_irrefl _ (hre.ids _ (.inl hme)), .inl ⟨⟨_, rfl, rfl⟩, ?_⟩⟩
      intro msg hm
      simp only [Remote.setClient, update_self, Client.onTheWay, hp, mem_singleton] at hm
      rw [hm]
      exact Event.terminal_of_started hs
    · exact absurd (.inr hid) (hr id)
    · exact absurd hid (hr id)

/-! Runs. -/

/-- The condition on a step: a session that is stopped finds a place in the queue of its client, no
message is too large, and the numbers of sessions do not run out. -/
def Remote.Answers (remote : Remote B S) : RemoteEvent B S → Prop
  | .write _ written _ => written ≠ .tooLarge
  | .drainCommand =>
    match remote.commands.head? with
    | some (.start _ _) => remote.nextSessionId < 2 ^ 64 - 1
    | some (.stop sessionId) => ∀ session, getKey sessionId remote.sessions = some session →
      (remote.clients session.outbound).incoming.length < outboundQueueDepth
    | _ => True
  | _ => True

theorem answered_step [BEq S] {ev : RemoteEvent B S} (hs : remote.step ev = some next)
    (ha : remote.Answers ev) (h : Owned remote ∧ Answered remote) :
    Owned next ∧ Answered next := by
  obtain ⟨ho, h⟩ := h
  refine ⟨owned_step hs ho, ?_⟩
  have hsa : ∀ {next : Remote B S}, next.commands = remote.commands →
      next.nextSessionId = remote.nextSessionId → next.clients = remote.clients →
        next.sessions = remote.sessions → Answered next := fun hc =>
    h.same (fun _ hcm => hc ▸ hcm) fun _ hst => hc ▸ hst
  cases ev with
  | accept => exact h.accept hs
  | request c request => exact h.request ho hs
  | recv c => exact h.recv ho hs
  | write c wr spn => exact h.write ho ha hs
  | read c request => exact h.read hs
  | drainCommand =>
    cases drained_drainCommand hs with
    | start oid c rest hc =>
      simp only [Remote.Answers, hc, head?_cons] at ha
      exact h.drainStart ho hc ha
    | disconnected id rest hc => exact h.drainDisconnected ho hc
    | stop id rest hc =>
      simp only [Remote.Answers, hc, head?_cons] at ha
      exact h.drainStop ho hc ha
  | exportFrames readback sealed =>
    cases hs
    exact h.exportFrames ho readback sealed
  | publish oid buf geo dmg capturedAt =>
    cases hs
    exact hsa rfl rfl rfl rfl
  | invalidateOutput oid =>
    cases hs
    exact hsa rfl rfl rfl rfl
  | invalidateAll =>
    cases hs
    exact hsa rfl rfl rfl rfl
  | setOutputs outputs =>
    cases hs
    exact hsa rfl rfl rfl rfl

theorem answered_start (outputs : ℕ → Option (CaptureGeometry S)) :
    Answered (Remote.start outputs : Remote B S) := by
  refine ⟨nofun, fun id hid => ?_, nofun, nofun, nofun, fun c id _ hc => ?_, nofun, nofun,
    fun c id _ _ hc => ?_⟩
  · simp [Remote.start] at hid
  · cases hc
  · cases hc

/-- A client whose request to stop was read gets the answer as its last event when its thread
returns, and it has returned when nothing is left to do. -/
def StopsWell (remote : Remote B S) (c sessionId : ℕ) : Prop :=
  ((remote.clients c).alive = false → (remote.clients c).gotStopped sessionId) ∧
    (remote.commands = [] → (remote.clients c).onTheWay = [] → (remote.clients c).alive = false)

theorem Answered.stopsWell (h : Answered remote)
    (hs : (remote.clients c).reader = .stopped sessionId) (hc : (remote.clients c).connected)
    : StopsWell remote c sessionId := by
  refine ⟨fun hr => h.closed c sessionId (.inr hs) hr hc, fun hd he => ?_⟩
  by_contra hn
  have ha := eq_true_of_not_eq_false hn
  obtain hm | hstopping := h.stopping c sessionId hs ha hc
  · rw [hd] at hm
    cases hm
  · obtain ⟨front, last, hw, -⟩ := hstopping.answer
    rw [he] at hw
    simp at hw

/-- In every run nothing remains of a client that is gone once the commands are drained. In every
run that meets the condition a client that stops its session and stays connected is told so last. -/
theorem sessions_end [BEq S] (outputs : ℕ → Option (CaptureGeometry S))
    (events : List (RemoteEvent B S)) (final : Remote B S)
    (hrun : run Remote.step (Remote.start outputs) events = some final) (c : ℕ) :
    ((final.clients c).alive = false → final.commands = [] → NothingRemains final c) ∧
      (Meets Remote.step Remote.Answers (Remote.start outputs) events → ∀ sessionId,
        (final.clients c).reader = .stopped sessionId → (final.clients c).connected = true →
          StopsWell final c sessionId) := by
  have ho : Owned final := run_invariant owned_step hrun (owned_start outputs)
  refine ⟨ho.nothingRemains, fun hm sessionId hs hc => ?_⟩
  have ha := run_invariant_of_meets answered_step hm hrun
    ⟨owned_start outputs, answered_start outputs⟩
  exact ha.2.stopsWell hs hc

/-! One client and an output of two pixels. -/

def pairGeometry : CaptureGeometry Unit := ⟨2, 1, (), .normal⟩

def oneOutput : ℕ → Option (CaptureGeometry Unit) := fun _ => some pairGeometry

/-- A client connects and starts its session. -/
def sessionBegins : List (RemoteEvent ℕ Unit) :=
  [.accept, .request 0 (some (.startCapture 1)), .drainCommand, .recv 0, .write 0 .done true]

def quietStop : List (RemoteEvent ℕ Unit) :=
  sessionBegins ++ [.read 0 (some (.stopCapture 1)), .drainCommand, .recv 0, .write 0 .done false,
    .drainCommand]

theorem meets_quietStop :
    Meets Remote.step Remote.Answers (Remote.start oneOutput) quietStop := by
  refine .cons trivial rfl ?_
  refine .cons trivial rfl ?_
  refine .cons (by decide : 1 < 2 ^ 64 - 1) rfl ?_
  refine .cons trivial rfl ?_
  refine .cons nofun rfl ?_
  refine .cons trivial rfl ?_
  refine .cons (fun sess hs => ?_) rfl ?_
  · cases hs
    exact Nat.zero_lt_two
  refine .cons trivial rfl ?_
  refine .cons nofun rfl ?_
  exact .cons trivial rfl trivial

theorem sessions_end_sample : ∃ final : Remote ℕ Unit,
    run Remote.step (Remote.start oneOutput) quietStop = some final ∧
      NothingRemains final 0 ∧ (final.clients 0).gotStopped 1 := by
  obtain ⟨hn, hs⟩ := sessions_end oneOutput quietStop _ rfl 0
  exact ⟨_, rfl, hn rfl rfl, (hs meets_quietStop 1 rfl rfl).1 rfl⟩

/-- Two frames are in the queue when the session is stopped. -/
def crowdedStop : List (RemoteEvent ℕ Unit) :=
  sessionBegins ++ [.publish 1 0 pairGeometry [] 0, .exportFrames (fun _ => some 8) (fun _ => true),
    .publish 1 1 pairGeometry [⟨0, 0, 2, 1⟩] 1,
    .exportFrames (fun _ => some 8) (fun _ => true), .read 0 (some (.stopCapture 1)),
    .drainCommand, .recv 0, .write 0 .done false, .recv 0, .write 0 .done false, .recv 0]

theorem run_crowdedStop : ∃ final : Remote ℕ Unit,
    run Remote.step (Remote.start oneOutput) crowdedStop = some final ∧
      (final.clients 0).reader = .stopped 1 ∧ (final.clients 0).connected ∧
        (final.clients 0).alive = false ∧
          ∃ last, (final.clients 0).received.getLast? = some last ∧ last.event.terminal = false :=
  ⟨_, rfl, rfl, rfl, rfl, _, rfl, rfl⟩

/-- The answer has no place in the queue and is dropped. -/
theorem stop_unanswered : ¬ ∀ (outputs : ℕ → Option (CaptureGeometry Unit))
    (events : List (RemoteEvent ℕ Unit)) (final : Remote ℕ Unit),
    run Remote.step (Remote.start outputs) events = some final → ∀ c,
      ((final.clients c).alive = false → final.commands = [] → NothingRemains final c) ∧
        ∀ sessionId, (final.clients c).reader = .stopped sessionId →
          (final.clients c).connected = true → StopsWell final c sessionId := by
  intro h
  obtain ⟨final, hru, hs, hc, hr, last, hl, hq⟩ := run_crowdedStop
  obtain ⟨found, hf, ha⟩ := ((h oneOutput crowdedStop final hru 0).2 1 hs hc).1 hr
  obtain rfl : last = found := some.inj (hl.symm.trans hf)
  rw [ha] at hq
  cases hq

end FocalDesk.Capture
