import FocalDesk.Capture.Remote

/-! Sessions and the threads of their clients: nothing remains of a client that is gone. -/
namespace FocalDesk.Capture
open Library List Function OutputCaptureBroker

variable {B S : Type} {remote next : Remote B S} {c sessionId sid : ℕ} {client : Client B S}

/-- The session that a client knows or is about to read of. -/
def Client.knows (client : Client B S) : Option ℕ :=
  match client.phase with
  | .awaiting => client.incoming.head?.bind fun message => message.event.startedSession
  | .greeting sessionId _ => some sessionId
  | .serving sessionId => some sessionId
  | .sending sessionId _ => some sessionId
  | _ => none

theorem Client.alive_of_knows (h : client.knows = some sid) : client.alive := by
  unfold Client.knows at h
  unfold Client.alive
  cases hp : client.phase <;> simp_all

/-- There is one session with its consumer, or none. -/
def Held (sessions : List (ℕ × RemoteSession)) (consumers : List (ℕ × CaptureConsumer B S)) :
    Prop :=
  sessions = [] ∧ consumers = [] ∨ ∃ sessionId session consumer,
    sessions = [(sessionId, session)] ∧ consumers = [(session.consumerId, consumer)] ∧
      consumer.outputId = session.outputId

def RemoteCommand.isStart : RemoteCommand → Bool
  | .start _ _ => true
  | _ => false

/-- A session belongs to a client that knows it, or that has returned and told so. -/
structure Owned (remote : Remote B S) : Prop where
  serial : ∀ c, (remote.clients c).alive = true → c + 1 = remote.accepted
  held : Held remote.sessions remote.broker.consumers
  known : ∀ entry ∈ remote.sessions,
    (remote.clients entry.2.outbound).knows = some entry.1 ∨
      (remote.clients entry.2.outbound).alive = false ∧ entry.2.outbound < remote.accepted ∧
        .disconnected entry.1 ∈ remote.commands
  starts : ∀ before after outputId c,
    remote.commands = before ++ .start outputId c :: after →
      (remote.clients c).phase = .awaiting ∧ (remote.clients c).incoming = [] ∧
        (∀ command ∈ after, command.isStart = false) ∧
          ∀ entry ∈ remote.sessions, .disconnected entry.1 ∈ before

namespace Owned

/-- The client of a session does not wait for its start. -/
theorem not_starting (h : Owned remote) {e : ℕ × RemoteSession}
    (he : e ∈ remote.sessions) (outputId : ℕ) :
    .start outputId e.2.outbound ∉ remote.commands := by
  intro hm
  obtain ⟨pre, after, hc⟩ := append_of_mem hm
  obtain ⟨hp, hi, -, -⟩ := h.starts pre after outputId _ hc
  obtain hk | ⟨ha, -, -⟩ := h.known e he
  · simp [Client.knows, hp, hi] at hk
  · simp [Client.alive, hp] at ha

/-- A thread goes on, and may send commands. -/
theorem thread (h : Owned remote) (c : ℕ) (client : Client B S) (new : List RemoteCommand)
    (hal : client.alive → (remote.clients c).alive)
    (hk : ∀ sid, (remote.clients c).knows = some sid →
      client.knows = some sid ∨ client.alive = false ∧ .disconnected sid ∈ new)
    (hn : ∀ cmd ∈ new, cmd.isStart = false)
    (hst : ∀ outputId, .start outputId c ∈ remote.commands →
      client.phase = .awaiting ∧ client.incoming = []) :
    Owned { remote with
      clients := update remote.clients c client, commands := remote.commands ++ new } := by
  refine ⟨fun d hd => ?_, h.held, fun e hen => ?_, ?_⟩
  · dsimp only at hd
    by_cases hs : d = c
    · subst hs
      rw [update_self] at hd
      exact h.serial d (hal hd)
    · rw [update_of_ne hs] at hd
      exact h.serial d hd
  · dsimp only
    by_cases hs : e.2.outbound = c
    · rw [hs, update_self]
      obtain he | ⟨hg, hlt, hc⟩ := hs ▸ h.known e hen
      · obtain hsi | ⟨hg, hc⟩ := hk e.1 he
        · exact .inl hsi
        · have hse := h.serial c (Client.alive_of_knows he)
          exact .inr ⟨hg, by omega, mem_append_right _ hc⟩
      · refine .inr ⟨?_, hlt, mem_append_left _ hc⟩
        by_contra hnt
        have hnw := hal (Bool.eq_true_of_not_eq_false hnt)
        rw [hg] at hnw
        cases hnw
    · rw [update_of_ne hs]
      obtain he | ⟨hg, hlt, hc⟩ := h.known e hen
      · exact .inl he
      · exact .inr ⟨hg, hlt, mem_append_left _ hc⟩
  · intro pre after outputId d hcm
    dsimp only at hcm ⊢
    -- A start is one that was there before.
    obtain ⟨rest, ha, hp⟩ | ⟨rest, hp, ha⟩ := append_eq_append_iff.mp hcm
    · have hm : .start outputId d ∈ new := by
        rw [hp]
        exact mem_append_right _ mem_cons_self
      have hno := hn _ hm
      simp [RemoteCommand.isStart] at hno
    · rcases rest with _ | ⟨fst, rest⟩
      · have hm : .start outputId d ∈ new := by
          rw [nil_append] at ha
          rw [← ha]
          exact mem_cons_self
        have hno := hn _ hm
        simp [RemoteCommand.isStart] at hno
      · obtain ⟨rfl, rfl⟩ := cons_eq_cons.mp ha
        obtain ⟨hph, hi, ho, hcl⟩ := h.starts pre rest outputId d hp
        refine ⟨?_, ?_, ?_, hcl⟩
        · by_cases hs : d = c
          · subst hs
            rw [update_self]
            exact (hst outputId (hp ▸ mem_append_right _ mem_cons_self)).1
          · rwa [update_of_ne hs]
        · by_cases hs : d = c
          · subst hs
            rw [update_self]
            exact (hst outputId (hp ▸ mem_append_right _ mem_cons_self)).2
          · rwa [update_of_ne hs]
        · intro cmd hc
          obtain hc | hc := mem_append.mp hc
          · exact ho cmd hc
          · exact hn cmd hc

theorem setClient (h : Owned remote) (c : ℕ) (client : Client B S)
    (ha : client.alive → (remote.clients c).alive)
    (hk : ∀ sid, (remote.clients c).knows = some sid → client.knows = some sid)
    (hs : ∀ outputId, .start outputId c ∈ remote.commands →
      client.phase = .awaiting ∧ client.incoming = []) : Owned (remote.setClient c client) := by
  have ht := h.thread c client [] ha (fun id hid => .inl (hk id hid)) (by simp) hs
  rwa [append_nil] at ht

/-- A message takes a place in the queue of a client that does not wait for its start. -/
theorem trySend (h : Owned remote) {c : ℕ}
    (hs : ∀ outputId, .start outputId c ∉ remote.commands) (msg : RemoteOutbound B S) :
    Owned (remote.trySend c msg).1 := by
  unfold Remote.trySend
  dsimp only
  split
  · exact h
  · split
    · exact h
    · refine h.setClient c _ (fun ha => ha) (fun id hid => ?_) fun outputId hm =>
        absurd hm (hs outputId)
      unfold Client.knows at hid ⊢
      dsimp only
      cases hp : (remote.clients c).phase with
      | awaiting =>
        rcases hi : (remote.clients c).incoming with _ | ⟨fst, rest⟩
        · simp [hp, hi] at hid
        · simpa [hp, hi] using hid
      | reading => simp [hp] at hid
      | refusing msg => simp [hp] at hid
      | returned => simp [hp] at hid
      | greeting id' msg => simpa [hp] using hid
      | serving id' => simpa [hp] using hid
      | sending id' msg => simpa [hp] using hid

/-- Sessions go with their consumers. -/
theorem narrow (h : Owned remote) {sessions : List (ℕ × RemoteSession)}
    {broker : OutputCaptureBroker B S} (hh : Held sessions broker.consumers)
    (hs : ∀ e ∈ sessions, e ∈ remote.sessions) :
    Owned { remote with sessions, broker } where
  serial := h.serial
  held := hh
  known e hentry := h.known e (hs e hentry)
  starts before after outputId c hcommands := by
    obtain ⟨hp, hi, ho, hc⟩ := h.starts before after outputId c hcommands
    exact ⟨hp, hi, ho, fun e hentry => hc e (hs e hentry)⟩

/-- A command is taken that no session waits for. -/
theorem pop (h : Owned remote) {cmd : RemoteCommand} {rest : List RemoteCommand}
    (hc : remote.commands = cmd :: rest)
    (ho : ∀ e ∈ remote.sessions, cmd ≠ .disconnected e.1) :
    Owned { remote with commands := rest } where
  serial := h.serial
  held := h.held
  known e hentry := by
    refine (h.known e hentry).imp_right fun hg => ⟨hg.1, hg.2.1, ?_⟩
    have hm := hc ▸ hg.2.2
    exact (mem_cons.mp hm).resolve_left fun heq => ho e hentry heq.symm
  starts before after outputId c hrest := by
    have ha : remote.commands = (cmd :: before) ++ .start outputId c :: after := by
      rw [hc]
      exact congrArg (cmd :: ·) hrest
    obtain ⟨hp, hi, hon, hcl⟩ := h.starts _ after outputId c ha
    refine ⟨hp, hi, hon, fun e hentry => ?_⟩
    exact (mem_cons.mp (hcl e hentry)).resolve_left fun heq =>
      ho e hentry heq.symm

end Owned

/-- What is left after the removal of a session. -/
theorem removeSession_cases (hh : Held remote.sessions remote.broker.consumers) (sid : ℕ)
    : ∃ sessions broker,
      remote.removeSession sid = { remote with sessions, broker } ∧
        Held sessions broker.consumers ∧
          ∀ e, e ∈ sessions ↔ e ∈ remote.sessions ∧ e.1 ≠ sid := by
  unfold Remote.removeSession
  obtain ⟨hs, hc⟩ | ⟨id, sess, cons, hs, hc, ho⟩ := hh
  · refine ⟨remote.sessions, remote.broker, ?_, .inl ⟨hs, hc⟩, ?_⟩
    · have hg : getKey sid remote.sessions = none := by rw [hs]; rfl
      simp only [hg]
    · simp [hs]
  · by_cases hid : sid = id
    · subst hid
      refine ⟨[], remote.broker.remove sess.consumerId, ?_, .inl ⟨rfl, ?_⟩, ?_⟩
      · simp [hs, getKey_cons, removeKey]
      · simp [remove, hc, removeKey]
      · intro e
        simp only [hs, mem_singleton, not_mem_nil, false_iff, not_and, not_not]
        rintro rfl
        rfl
    · refine ⟨remote.sessions, remote.broker, ?_, .inr ⟨id, sess, cons, hs,
        hc, ho⟩, ?_⟩
      · have hg : getKey sid remote.sessions = none := by
          rw [hs, getKey_cons, if_neg hid]
          rfl
        simp only [hg]
      · intro e
        simp only [hs, mem_singleton, iff_self_and]
        rintro rfl
        exact Ne.symm hid

theorem Owned.removeSession (h : Owned remote) (sid : ℕ) :
    Owned (remote.removeSession sid) := by
  obtain ⟨sessions, broker, heq, hh, hm⟩ := removeSession_cases h.held sid
  rw [heq]
  exact h.narrow hh fun e he => ((hm e).mp he).1

/-- The order of taking a command and removing a session does not matter. -/
theorem removeSession_commands (remote : Remote B S) (sid : ℕ) (commands : List RemoteCommand)
    :
    ({ remote with commands } : Remote B S).removeSession sid =
      { remote.removeSession sid with commands } := by
  unfold Remote.removeSession
  dsimp only
  split <;> rfl

theorem commands_removeSession (remote : Remote B S) (sid : ℕ) :
    (remote.removeSession sid).commands = remote.commands := by
  unfold Remote.removeSession
  split <;> rfl

variable {rest : List RemoteCommand}

theorem Owned.drainDisconnected (h : Owned remote)
    (hc : remote.commands = .disconnected sid :: rest) :
    Owned (({ remote with commands := rest } : Remote B S).removeSession sid) := by
  obtain ⟨sessions, broker, heq, hh, hm⟩ := removeSession_cases h.held sid
  rw [removeSession_commands]
  refine (h.removeSession sid).pop ((commands_removeSession _ _).trans hc) ?_
  rw [heq]
  intro e he hs
  cases hs
  exact ((hm e).mp he).2 rfl

theorem Owned.drainStop (h : Owned remote) (hc : remote.commands = .stop sid :: rest) :
    Owned (({ remote with commands := rest } : Remote B S).stopSession sid) := by
  have hp : Owned { remote with commands := rest } := h.pop hc fun _ _ hs => by
    cases hs
  unfold Remote.stopSession
  dsimp only
  rcases hg : getKey sid remote.sessions with _ | sess
  · exact hp
  · refine (hp.removeSession sid).trySend (fun outputId hm => ?_) _
    rw [commands_removeSession] at hm
    exact hp.not_starting (mem_of_getKey hg) outputId hm

theorem trySend_of_place {msg : RemoteOutbound B S}
    (ha : (remote.clients c).alive)
    (hp : (remote.clients c).incoming.length < outboundQueueDepth) :
    remote.trySend c msg = (remote.setClient c { remote.clients c with
      incoming := (remote.clients c).incoming ++ [msg] }, .ok) := by
  simp only [Remote.trySend, ha, Bool.true_eq_false, if_false, Nat.not_le.mpr hp]

/-- A start is answered with an error, or with a session. -/
theorem startSession_cases (remote : Remote B S) (outputId : ℕ) (hs : remote.sessions = [])
    (hc : remote.broker.consumers = []) (ha : (remote.clients c).alive)
    (hi : (remote.clients c).incoming = []) :
    (∃ msg, remote.startSession outputId c = remote.setClient c
      { remote.clients c with incoming := [⟨.error msg, none⟩] }) ∨
      ∃ broker cid std,
        broker.consumers = [(cid, CaptureConsumer.register outputId 2)] ∧
        std.startedSession = some remote.nextSessionId ∧
        remote.startSession outputId c = Remote.setClient { remote with
            nextSessionId := saturatingAdd remote.nextSessionId 1
            sessions := [(remote.nextSessionId, ⟨cid, outputId, c⟩)]
            broker } c
          { remote.clients c with incoming := [⟨std, none⟩] } := by
  have hp : (remote.clients c).incoming.length < outboundQueueDepth := by
    rw [hi]
    exact Nat.zero_lt_two
  unfold Remote.startSession
  dsimp only
  rcases ho : remote.outputs outputId with _ | geo
  · refine .inl ⟨s!"unknown output {outputId}", ?_⟩
    dsimp only
    rw [trySend_of_place ha hp, hi]
    rfl
  · let registered : OutputCaptureBroker B S := { remote.broker with
      nextConsumerId := saturatingAdd remote.broker.nextConsumerId 1
      consumers := [(remote.broker.nextConsumerId, .register outputId 2)] }
    have hr : remote.broker.register outputId 2 =
        .ok (registered, remote.broker.nextConsumerId) := by
      simp [register, maxCaptureQueueDepth, putKey, removeKey, hc, registered]
    refine .inr ⟨registered, remote.broker.nextConsumerId,
      .captureStarted remote.nextSessionId outputId geo.width.toNat
      geo.height.toNat geo.scale geo.transform, rfl, rfl, ?_⟩
    simp only [hr, Remote.trySend, ha, hi, hs, putKey, removeKey,
      outboundQueueDepth, Bool.true_eq_false, if_false, length_nil, filter_nil,
      nil_append, nonpos_iff_eq_zero, OfNat.ofNat_ne_zero]

/-- There is no session when a start is taken, and its client waits. -/
theorem Owned.before_start (h : Owned remote) {outputId : ℕ}
    (hcm : remote.commands = .start outputId c :: rest) :
    remote.sessions = [] ∧ remote.broker.consumers = [] ∧
      (remote.clients c).phase = .awaiting ∧ (remote.clients c).incoming = [] ∧
        ∀ cmd ∈ rest, cmd.isStart = false := by
  obtain ⟨hp, hi, ho, hcl⟩ := h.starts [] rest outputId c hcm
  have hs : remote.sessions = [] := by
    rcases hs : remote.sessions with _ | ⟨e, _⟩
    · rfl
    · have hm := hcl e (hs ▸ mem_cons_self)
      cases hm
  refine ⟨hs, ?_, hp, hi, ho⟩
  obtain ⟨-, hc⟩ | ⟨id, sess, cons, hso, -⟩ := h.held
  · exact hc
  · rw [hs] at hso
    cases hso

theorem Owned.drainStart (h : Owned remote) {outputId : ℕ}
    (hcm : remote.commands = .start outputId c :: rest) :
    Owned (({ remote with commands := rest } : Remote B S).startSession outputId c) := by
  obtain ⟨hse, hc, hp, hi, ho⟩ := h.before_start hcm
  have hpo : Owned { remote with commands := rest } := h.pop hcm (by simp [hse])
  have hn : ∀ other d, .start other d ∉ rest := by
    intro other d hm
    have hno := ho _ hm
    simp [RemoteCommand.isStart] at hno
  have ha : (remote.clients c).alive := by simp [Client.alive, hp]
  obtain ⟨msg, heq⟩ | ⟨broker, cid, std, hb, hs, heq⟩ :=
    startSession_cases ({ remote with commands := rest } : Remote B S) outputId hse hc ha hi
  · rw [heq]
    refine hpo.setClient c _ (fun _ => ha) (fun id hid => ?_) fun other hm => absurd hm (hn other c)
    simp [Client.knows, hp, hi] at hid
  · rw [heq]
    refine ⟨fun d hd => ?_, ?_, fun e he => .inl ?_, fun pre after other d hm => ?_⟩
    · by_cases hsa : d = c
      · subst hsa
        exact h.serial d ha
      · simp only [Remote.setClient, update_of_ne hsa] at hd
        exact h.serial d hd
    · exact .inr ⟨_, _, _, rfl, hb, rfl⟩
    · obtain rfl := mem_singleton.mp he
      simp [Remote.setClient, Client.knows, hp, hs]
    · have hr : rest = pre ++ .start other d :: after := hm
      exact absurd (hr ▸ mem_append_right pre mem_cons_self) (hn other d)

/-- The command that is taken next. -/
inductive Drained (remote : Remote B S) : Remote B S → Prop where
  | start (outputId c : ℕ) (rest : List RemoteCommand)
      (hcommands : remote.commands = .start outputId c :: rest) :
      Drained remote (({ remote with commands := rest } : Remote B S).startSession outputId c)
  | disconnected (id : ℕ) (rest : List RemoteCommand)
      (hcommands : remote.commands = .disconnected id :: rest) :
      Drained remote (({ remote with commands := rest } : Remote B S).removeSession id)
  | stop (id : ℕ) (rest : List RemoteCommand) (hcommands : remote.commands = .stop id :: rest) :
      Drained remote (({ remote with commands := rest } : Remote B S).stopSession id)

theorem drained_drainCommand (hs : remote.drainCommand = some next) : Drained remote next := by
  unfold Remote.drainCommand at hs
  split at hs
  · cases hs
  · rename_i command rest hc
    cases command with
    | start outputId c =>
      cases hs
      exact .start outputId c rest hc
    | disconnected id =>
      cases hs
      exact .disconnected id rest hc
    | stop id =>
      cases hs
      exact .stop id rest hc

/-! The threads. -/

theorem accept_eq_some (hs : remote.accept = some next) :
    (remote.accepted = 0 ∨ (remote.clients (remote.accepted - 1)).alive = false) ∧
      next = { remote.setClient remote.accepted ⟨.reading, .absent, [], [], true⟩ with
        accepted := remote.accepted + 1 } := by
  unfold Remote.accept at hs
  split at hs
  · rename_i hf
    cases hs
    exact ⟨hf, rfl⟩
  · cases hs

/-- What the thread of a client does with its first request. -/
inductive Requested (remote : Remote B S) (c : ℕ) : Remote B S → Prop where
  | failed (hphase : (remote.clients c).phase = .reading) :
      Requested remote c (remote.setClient c (remote.clients c).finish)
  | refused (hphase : (remote.clients c).phase = .reading) :
      Requested remote c (remote.setClient c { remote.clients c with
        phase := .refusing ⟨.error "first request must start capture", none⟩ })
  | started (hphase : (remote.clients c).phase = .reading) (outputId : ℕ) :
      Requested remote c ((remote.setClient c
        { remote.clients c with phase := .awaiting, incoming := [] }).send (.start outputId c))

theorem requested_request {request : Option Request}
    (hs : remote.request c request = some next) : Requested remote c next := by
  unfold Remote.request at hs
  dsimp only at hs
  split at hs
  · rename_i hp
    split at hs
    · cases hs
      exact .failed hp
    · cases hs
      exact .refused hp
    · cases hs
      exact .started hp _
  · cases hs

/-- What it does with the next message, or without one. -/
inductive Received (remote : Remote B S) (c : ℕ) : Remote B S → Prop where
  | greeting (id : ℕ) (message : RemoteOutbound B S) (incoming : List (RemoteOutbound B S))
      (hphase : (remote.clients c).phase = .awaiting)
      (hincoming : (remote.clients c).incoming = message :: incoming)
      (hstarted : message.event.startedSession = some id) :
      Received remote c (remote.setClient c
        { remote.clients c with phase := .greeting id message, incoming })
  | refusing (message : RemoteOutbound B S) (incoming : List (RemoteOutbound B S))
      (hphase : (remote.clients c).phase = .awaiting)
      (hincoming : (remote.clients c).incoming = message :: incoming)
      (hstarted : message.event.startedSession = none) :
      Received remote c (remote.setClient c
        { remote.clients c with phase := .refusing message, incoming })
  | abandoned (hphase : (remote.clients c).phase = .awaiting)
      (hincoming : (remote.clients c).incoming = []) (hsender : remote.hasSender c = false) :
      Received remote c (remote.setClient c (remote.clients c).finish)
  | sending (id : ℕ) (message : RemoteOutbound B S) (incoming : List (RemoteOutbound B S))
      (hphase : (remote.clients c).phase = .serving id)
      (hincoming : (remote.clients c).incoming = message :: incoming) :
      Received remote c (remote.setClient c
        { remote.clients c with phase := .sending id message, incoming })
  | closed (id : ℕ) (hphase : (remote.clients c).phase = .serving id)
      (hincoming : (remote.clients c).incoming = []) (hsender : remote.hasSender c = false) :
      Received remote c (remote.leave c id (remote.clients c))

theorem received_recv (hs : remote.recv c = some next) : Received remote c next := by
  unfold Remote.recv at hs
  dsimp only at hs
  split at hs
  · rename_i message incoming hp hi
    split at hs
    · rename_i id hst
      cases hs
      exact .greeting id message incoming hp hi hst
    · rename_i hst
      cases hs
      exact .refusing message incoming hp hi hst
  · rename_i hp hi
    split at hs
    · cases hs
    · rename_i hse
      cases hs
      exact .abandoned hp hi (Bool.eq_false_iff.mpr hse)
  · rename_i id message incoming hp hi
    cases hs
    exact .sending id message incoming hp hi
  · rename_i id hp hi
    split at hs
    · cases hs
    · rename_i hse
      cases hs
      exact .closed id hp hi (Bool.eq_false_iff.mpr hse)
  · cases hs

/-- What it does after the message in hand is written, or is not. -/
inductive Wrote (remote : Remote B S) (c : ℕ) (written : Written) : Remote B S → Prop where
  | refused (message : RemoteOutbound B S)
      (hphase : (remote.clients c).phase = .refusing message) :
      Wrote remote c written (remote.setClient c (Client.finish
        { remote.clients c with received := (remote.clients c).received ++ [message] }))
  | unheard (message : RemoteOutbound B S)
      (hphase : (remote.clients c).phase = .refusing message) :
      Wrote remote c written (remote.setClient c (Client.finish { remote.clients c with
        connected := (remote.clients c).connected && written ≠ .broken }))
  | greeted (id : ℕ) (message : RemoteOutbound B S)
      (hphase : (remote.clients c).phase = .greeting id message) (spawned : Bool) :
      Wrote remote c written (remote.setClient c { remote.clients c with
        phase := .serving id
        reader := if spawned then .running id else .absent
        received := (remote.clients c).received ++ [message] })
  | ended (id : ℕ) (message : RemoteOutbound B S)
      (hphase : (remote.clients c).phase = .sending id message)
      (hterminal : message.event.terminal = true) :
      Wrote remote c written (remote.leave c id
        { remote.clients c with received := (remote.clients c).received ++ [message] })
  | sent (id : ℕ) (message : RemoteOutbound B S)
      (hphase : (remote.clients c).phase = .sending id message)
      (hterminal : message.event.terminal = false) :
      Wrote remote c written (remote.setClient c { remote.clients c with
        phase := .serving id
        received := (remote.clients c).received ++ [message] })
  | failed (id : ℕ) (hknows : (remote.clients c).knows = some id)
      (hphase : (remote.clients c).phase ≠ .awaiting) (hwritten : written ≠ .done) :
      Wrote remote c written (remote.leave c id { remote.clients c with
        connected := (remote.clients c).connected && written ≠ .broken })

theorem wrote_write {wr : Written} {spn : Bool}
    (hs : remote.write c wr spn = some next) : Wrote remote c wr next := by
  unfold Remote.write at hs
  dsimp only at hs
  split at hs
  · rename_i message hp
    split at hs
    · cases hs
      exact .refused message hp
    · cases hs
      exact .unheard message hp
  · rename_i id message hp
    split at hs
    · cases hs
      exact .greeted id message hp spn
    · rename_i hw
      cases hs
      exact .failed id (by simp [Client.knows, hp]) (by simp [hp]) hw
  · rename_i id message hp
    split at hs
    · split at hs
      · rename_i ht
        cases hs
        exact .ended id message hp ht
      · rename_i ht
        cases hs
        exact .sent id message hp (Bool.eq_false_iff.mpr ht)
    · rename_i hw
      cases hs
      exact .failed id (by simp [Client.knows, hp]) (by simp [hp]) hw
  · cases hs

/-- What the reader does with a request. -/
inductive HasRead (remote : Remote B S) (c : ℕ) : Remote B S → Prop where
  | ignored : HasRead remote c remote
  | stopped (id : ℕ) (hreader : (remote.clients c).reader = .running id) :
      HasRead remote c ((remote.setClient c
        { remote.clients c with reader := .stopped id }).send (.stop id))
  | ended (id : ℕ) (hreader : (remote.clients c).reader = .running id) :
      HasRead remote c ((remote.setClient c { remote.clients c with
        reader := .ended, connected := false }).send (.disconnected id))

theorem hasRead_read {request : Option Request} (hs : remote.read c request = some next) :
    HasRead remote c next := by
  unfold Remote.read at hs
  dsimp only at hs
  split at hs
  · rename_i id hr
    split at hs
    · split at hs
      · cases hs
        exact .stopped id hr
      · cases hs
        exact .ignored
    · cases hs
      exact .ignored
    · cases hs
      exact .ended id hr
  · cases hs

/-- The only start is the one that was sent last. -/
theorem only_start {commands pre after : List RemoteCommand} {outputId other d : ℕ}
    (ho : ∀ cmd ∈ commands, cmd.isStart = false)
    (h : commands ++ [.start outputId c] = pre ++ .start other d :: after) :
    commands = pre ∧ after = [] ∧ outputId = other ∧ c = d := by
  obtain ⟨rest, hp, ha⟩ | ⟨rest, hp, ha⟩ := append_eq_append_iff.mp h
  · rcases rest with _ | ⟨fst, rest⟩
    · rw [nil_append] at ha
      rw [append_nil] at hp
      cases ha
      exact ⟨hp.symm, rfl, rfl, rfl⟩
    · have hl := congrArg List.length ha
      simp at hl
  · rcases rest with _ | ⟨fst, rest⟩
    · rw [nil_append] at ha
      rw [append_nil] at hp
      cases ha
      exact ⟨hp, rfl, rfl, rfl⟩
    · obtain ⟨hf, -⟩ := cons_eq_cons.mp ha
      have hm : .start other d ∈ commands := by
        rw [hp, hf]
        exact mem_append_right _ mem_cons_self
      have hno := ho _ hm
      simp [RemoteCommand.isStart] at hno

namespace Owned

theorem not_start_of_phase (h : Owned remote) (hp : (remote.clients c).phase ≠ .awaiting)
    (outputId : ℕ) : .start outputId c ∉ remote.commands := by
  intro hm
  obtain ⟨pre, after, hc⟩ := append_of_mem hm
  exact hp (h.starts pre after outputId c hc).1

theorem not_start_of_incoming (h : Owned remote) (hi : (remote.clients c).incoming ≠ [])
    (outputId : ℕ) : .start outputId c ∉ remote.commands := by
  intro hm
  obtain ⟨pre, after, hc⟩ := append_of_mem hm
  exact hi (h.starts pre after outputId c hc).2.1

/-- The thread returns and says so. -/
theorem leave (h : Owned remote) (hk : (remote.clients c).knows = some sid)
    (hs : ∀ outputId, .start outputId c ∉ remote.commands) (client : Client B S) :
    Owned (remote.leave c sid client) := by
  refine h.thread c client.finish [.disconnected sid] (fun ha => ?_) (fun id hid => ?_)
    (by simp [RemoteCommand.isStart]) fun outputId hm => absurd hm (hs outputId)
  · cases ha
  · obtain rfl : sid = id := Option.some.inj (hk.symm.trans hid)
    exact .inr ⟨rfl, mem_singleton_self _⟩

/-- The thread returns without a session. -/
theorem finish (h : Owned remote) (hk : (remote.clients c).knows = none)
    (hs : ∀ outputId, .start outputId c ∉ remote.commands) (client : Client B S) :
    Owned (remote.setClient c client.finish) := by
  refine h.setClient c client.finish (fun ha => ?_) (fun id hid => ?_)
    fun outputId hm => absurd hm (hs outputId)
  · cases ha
  · rw [hk] at hid
    cases hid

theorem accept (h : Owned remote) (hst : remote.accept = some next) : Owned next := by
  obtain ⟨hf, rfl⟩ := accept_eq_some hst
  have hn : ∀ d, (remote.clients d).alive = false := by
    intro d
    by_contra hno
    have ha := Bool.eq_true_of_not_eq_false hno
    have hse := h.serial d ha
    obtain hz | hlast := hf
    · omega
    · rw [show remote.accepted - 1 = d by omega, ha] at hlast
      cases hlast
  refine ⟨fun d hd => ?_, h.held, fun e he => ?_, ?_⟩
  · by_cases hs : d = remote.accepted
    · exact congrArg (· + 1) hs
    · simp only [Remote.setClient, update_of_ne hs, hn d] at hd
      cases hd
  · obtain hk | ⟨hg, hlt, hcm⟩ := h.known e he
    · have ha := Client.alive_of_knows hk
      rw [hn] at ha
      cases ha
    · have hne : e.2.outbound ≠ remote.accepted := Nat.ne_of_lt hlt
      simp only [Remote.setClient, update_of_ne hne]
      exact .inr ⟨hg, Nat.lt_succ_of_lt hlt, hcm⟩
  · intro pre after outputId d hc
    obtain ⟨hp, -⟩ := h.starts pre after outputId d hc
    have hg := hn d
    simp [Client.alive, hp] at hg

/-- A client asks for its session. -/
theorem requestStart (h : Owned remote) (hp : (remote.clients c).phase = .reading)
    (outputId : ℕ) : Owned ((remote.setClient c
      { remote.clients c with phase := .awaiting, incoming := [] }).send (.start outputId c)) := by
  have ha : (remote.clients c).alive := by simp [Client.alive, hp]
  have hk : (remote.clients c).knows = none := by simp [Client.knows, hp]
  have hw : ∀ e ∈ remote.sessions, .disconnected e.1 ∈ remote.commands := by
    intro e hen
    obtain he | ⟨-, -, hcm⟩ := h.known e hen
    · have hse := h.serial _ (Client.alive_of_knows he)
      have hs : e.2.outbound = c := by
        have how := h.serial c ha
        omega
      rw [hs, hk] at he
      cases he
    · exact hcm
  have hon : ∀ cmd ∈ remote.commands, cmd.isStart = false := by
    intro cmd hm
    cases cmd with
    | disconnected id => rfl
    | stop id => rfl
    | start other d =>
      obtain ⟨pre, after, hc⟩ := append_of_mem hm
      obtain ⟨ho, -⟩ := h.starts pre after other d hc
      have hse := h.serial d (by simp [Client.alive, ho])
      have hs : d = c := by
        have how := h.serial c ha
        omega
      rw [hs, hp] at ho
      cases ho
  refine ⟨fun d hd => ?_, h.held, fun e hen => ?_, ?_⟩
  · by_cases hs : d = c
    · subst hs
      exact h.serial d ha
    · simp only [Remote.send, Remote.setClient, update_of_ne hs] at hd
      exact h.serial d hd
  · obtain he | ⟨hg, hlt, hcm⟩ := h.known e hen
    · have hne : e.2.outbound ≠ c := by
        intro hs
        rw [hs, hk] at he
        cases he
      simp only [Remote.send, Remote.setClient, update_of_ne hne]
      exact .inl he
    · have hne : e.2.outbound ≠ c := by
        intro hs
        rw [hs, ha] at hg
        cases hg
      simp only [Remote.send, Remote.setClient, update_of_ne hne]
      exact .inr ⟨hg, hlt, mem_append_left _ hcm⟩
  · intro pre after other d hc
    have hl : remote.commands ++ [.start outputId c] = pre ++ .start other d :: after := hc
    obtain ⟨rfl, rfl, rfl, rfl⟩ := only_start hon hl
    simp only [Remote.send, Remote.setClient, update_self]
    exact ⟨trivial, trivial, by simp, hw⟩

theorem request (h : Owned remote) {request : Option Request}
    (hs : remote.request c request = some next) : Owned next := by
  have hn : (remote.clients c).phase = .reading → ∀ outputId,
      .start outputId c ∉ remote.commands :=
    fun hp => h.not_start_of_phase (by simp [hp])
  cases requested_request hs with
  | failed hp => exact h.finish (by simp [Client.knows, hp]) (hn hp) _
  | refused hp =>
    refine h.setClient c _ (fun _ => by simp [Client.alive, hp]) (fun id hid => ?_)
      fun outputId hm => absurd hm (hn hp outputId)
    simp [Client.knows, hp] at hid
  | started hp outputId => exact h.requestStart hp outputId

theorem recv (h : Owned remote) (hsp : remote.recv c = some next) : Owned next := by
  cases received_recv hsp with
  | greeting id msg incoming hp hi hs =>
    refine h.setClient c _ (fun _ => by simp [Client.alive, hp]) (fun other ho => ?_)
      fun outputId hm => absurd hm (h.not_start_of_incoming (by simp [hi]) outputId)
    have hk : (remote.clients c).knows = some id := by
      simpa [Client.knows, hp, hi] using hs
    exact hk.symm.trans ho
  | refusing msg incoming hp hi hs =>
    refine h.setClient c _ (fun _ => by simp [Client.alive, hp]) (fun other ho => ?_)
      fun outputId hm => absurd hm (h.not_start_of_incoming (by simp [hi]) outputId)
    simp [Client.knows, hp, hi, hs] at ho
  | abandoned hp hi hse =>
    refine h.finish (by simp [Client.knows, hp, hi]) (fun outputId hm => ?_) _
    have hst : remote.hasSender c := by
      unfold Remote.hasSender
      rw [Bool.or_eq_true]
      exact .inr (any_eq_true.mpr ⟨_, hm, by simp⟩)
    rw [hse] at hst
    cases hst
  | sending id msg incoming hp hi =>
    refine h.setClient c _ (fun _ => by simp [Client.alive, hp]) (fun other ho => ?_)
      fun outputId hm => absurd hm (h.not_start_of_incoming (by simp [hi]) outputId)
    simpa [Client.knows, hp] using ho
  | closed id hp hi hse =>
    exact h.leave (by simp [Client.knows, hp]) (h.not_start_of_phase (by simp [hp])) _

theorem write (h : Owned remote) {wr : Written} {spn : Bool}
    (hs : remote.write c wr spn = some next) : Owned next := by
  cases wrote_write hs with
  | refused msg hp =>
    exact h.finish (by simp [Client.knows, hp]) (h.not_start_of_phase (by simp [hp])) _
  | unheard msg hp =>
    exact h.finish (by simp [Client.knows, hp]) (h.not_start_of_phase (by simp [hp])) _
  | greeted id msg hp spn =>
    refine h.setClient c _ (fun _ => by simp [Client.alive, hp]) (fun other ho => ?_)
      fun outputId hm => absurd hm (h.not_start_of_phase (by simp [hp]) outputId)
    simpa [Client.knows, hp] using ho
  | ended id msg hp ht =>
    exact h.leave (by simp [Client.knows, hp]) (h.not_start_of_phase (by simp [hp])) _
  | sent id msg hp ht =>
    refine h.setClient c _ (fun _ => by simp [Client.alive, hp]) (fun other ho => ?_)
      fun outputId hm => absurd hm (h.not_start_of_phase (by simp [hp]) outputId)
    simpa [Client.knows, hp] using ho
  | failed id hk hp hw => exact h.leave hk (h.not_start_of_phase hp) _

/-- The reader changes, and may send a command. -/
theorem reader (h : Owned remote) (reader : Reader) (connected : Bool) (new : List RemoteCommand)
    (hn : ∀ cmd ∈ new, cmd.isStart = false) :
    Owned { remote with
      clients := update remote.clients c { remote.clients c with reader, connected }
      commands := remote.commands ++ new } := by
  refine h.thread c _ new (fun ha => ha) (fun id hid => .inl hid) hn fun outputId hm => ?_
  obtain ⟨pre, after, hc⟩ := append_of_mem hm
  obtain ⟨hp, hi, -⟩ := h.starts pre after outputId c hc
  exact ⟨hp, hi⟩

theorem read (h : Owned remote) {request : Option Request}
    (hs : remote.read c request = some next) : Owned next := by
  cases hasRead_read hs with
  | ignored => exact h
  | stopped id hr => exact h.reader _ _ _ (by simp [RemoteCommand.isStart])
  | ended id hr => exact h.reader _ _ _ (by simp [RemoteCommand.isStart])

end Owned

/-! The export of frames. -/

/-- The one consumer is set to another state. -/
def Remote.withConsumer (remote : Remote B S) (consumerId : ℕ) (consumer : CaptureConsumer B S) :
    Remote B S :=
  { remote with broker := { remote.broker with consumers := [(consumerId, consumer)] } }

/-- The newest frame of a queue, as it is taken. -/
def CaptureConsumer.latest (consumer : CaptureConsumer B S) : Option (CaptureFrame B S) :=
  consumer.queue.getLast?.map fun frame =>
    if 1 < consumer.queue.length then frame.forceFullRefresh else frame

/-- What can become of the export for a session. -/
inductive Exported (remote : Remote B S) (sessionId : ℕ) (session : RemoteSession)
    (consumer : CaptureConsumer B S) (pixels : Option ℕ) : Remote B S × Bool → Prop where
  | idle (hnone : consumer.latest = none) : Exported remote sessionId session consumer pixels
      (remote.withConsumer session.consumerId { consumer with queue := [] }, false)
  | lost (frame : CaptureFrame B S) (hframe : consumer.latest = some frame)
      (hpixels : pixels = none) : Exported remote sessionId session consumer pixels
        (remote.withConsumer session.consumerId { consumer with queue := [] }, false)
  | sent (frame : CaptureFrame B S) (hframe : consumer.latest = some frame) (len : ℕ)
      (hpixels : pixels = some len) (halive : (remote.clients session.outbound).alive = true)
      (hplace : (remote.clients session.outbound).incoming.length < outboundQueueDepth) :
      Exported remote sessionId session consumer pixels
        ((remote.withConsumer session.consumerId { consumer with queue := [] }).setClient
          session.outbound { remote.clients session.outbound with
            incoming := (remote.clients session.outbound).incoming ++
              [frameMessage sessionId len frame] }, false)
  | full (frame : CaptureFrame B S) (hframe : consumer.latest = some frame) (len : ℕ)
      (hpixels : pixels = some len) (halive : (remote.clients session.outbound).alive = true)
      (hfull : outboundQueueDepth ≤ (remote.clients session.outbound).incoming.length) :
      Exported remote sessionId session consumer pixels
        (remote.withConsumer session.consumerId consumer.requestFullRefresh, false)
  | gone (frame : CaptureFrame B S) (hframe : consumer.latest = some frame) (len : ℕ)
      (hpixels : pixels = some len) (halive : (remote.clients session.outbound).alive = false) :
      Exported remote sessionId session consumer pixels
        (remote.withConsumer session.consumerId { consumer with queue := [] }, true)

theorem exported_exportSession {sess : RemoteSession} {cons : CaptureConsumer B S}
    (hs : remote.sessions = [(sid, sess)])
    (hc : remote.broker.consumers = [(sess.consumerId, cons)])
    (readback : ℕ → Option ℕ) (sealed : ℕ → Bool) :
    Exported remote sid sess cons
      ((readback sid).bind (sealedMemfd (sealed sid)))
      (remote.exportSession readback sealed sid) := by
  have hg : getKey sid remote.sessions = some sess := by
    rw [hs, getKey_cons, if_pos rfl]
  have hco : getKey sess.consumerId remote.broker.consumers = some cons := by
    rw [hc, getKey_cons, if_pos rfl]
  have hse : ∀ new : CaptureConsumer B S,
      putKey sess.consumerId new remote.broker.consumers = [(sess.consumerId, new)] := by
    intro new
    simp [putKey, removeKey, hc]
  have ht : remote.broker.takeLatestFrame sess.consumerId =
      ({ remote.broker with consumers := [(sess.consumerId, { cons with queue := [] })] },
        cons.latest) := by
    simp only [takeLatestFrame, hco, setConsumer, hse]
    rfl
  unfold Remote.exportSession
  simp only [hg, ht]
  rcases hf : cons.latest with _ | frame
  · exact .idle hf
  · rcases hp : (readback sid).bind (sealedMemfd (sealed sid)) with _ | len
    · exact .lost frame hf rfl
    · simp only [Remote.trySend]
      by_cases ha : (remote.clients sess.outbound).alive = false
      · simp only [ha, if_true]
        exact .gone frame hf len rfl ha
      · have ha' := Bool.eq_true_of_not_eq_false ha
        by_cases hfu : outboundQueueDepth ≤ (remote.clients sess.outbound).incoming.length
        · have hr : requestFullRefresh { remote.broker with
              consumers := [(sess.consumerId, { cons with queue := [] })] }
                sess.consumerId = .ok ({ remote.broker with
                  consumers := [(sess.consumerId, cons.requestFullRefresh)] },
                  cons.outputId) := by
            simp [requestFullRefresh, getKey_cons,
              setConsumer, putKey, removeKey,
              CaptureConsumer.requestFullRefresh]
          simp only [ha', Bool.true_eq_false, if_false, hfu, if_true, hr]
          exact .full frame hf len rfl ha' hfu
        · simp only [ha', Bool.true_eq_false, if_false, hfu]
          exact .sent frame hf len rfl ha' (Nat.lt_of_not_le hfu)

/-- Frames are exported for the session that there is. -/
theorem exportFrames_cases (hh : Held remote.sessions remote.broker.consumers)
    (readback : ℕ → Option ℕ) (sealed : ℕ → Bool) :
    remote.exportFrames readback sealed = remote ∧ remote.sessions = [] ∨
      ∃ sid sess cons res, remote.sessions = [(sid, sess)] ∧
        remote.broker.consumers = [(sess.consumerId, cons)] ∧
          cons.outputId = sess.outputId ∧
          Exported remote sid sess cons
            ((readback sid).bind (sealedMemfd (sealed sid))) res ∧
          remote.exportFrames readback sealed =
            if res.2 then res.1.removeSession sid else res.1 := by
  obtain ⟨hs, -⟩ | ⟨id, sess, cons, hs, hc, ho⟩ := hh
  · refine .inl ⟨?_, hs⟩
    simp [Remote.exportFrames, hs]
  · refine .inr ⟨id, sess, cons, _, hs, hc, ho,
      exported_exportSession hs hc readback sealed, ?_⟩
    simp only [Remote.exportFrames, hs, map_cons, map_nil, foldl_cons, foldl_nil, nil_append]
    split <;> rfl

theorem Owned.withConsumer (h : Owned remote) {sess : RemoteSession}
    (hs : remote.sessions = [(sid, sess)]) {cons : CaptureConsumer B S}
    (ho : cons.outputId = sess.outputId) :
    Owned (remote.withConsumer sess.consumerId cons) :=
  ⟨h.serial, .inr ⟨sid, sess, cons, hs, rfl, ho⟩, h.known, h.starts⟩

theorem Owned.exportFrames (h : Owned remote) (readback : ℕ → Option ℕ) (sealed : ℕ → Bool) :
    Owned (remote.exportFrames readback sealed) := by
  obtain ⟨hsa, -⟩ | ⟨id, sess, cons, res, hs, -, ho, hex, heq⟩ :=
    exportFrames_cases h.held readback sealed
  · rw [hsa]
    exact h
  · rw [heq]
    have hm : (id, sess) ∈ remote.sessions := by simp [hs]
    have he : Owned (remote.withConsumer sess.consumerId { cons with queue := [] }) :=
      h.withConsumer hs ho
    cases hex with
    | idle hn => exact he
    | lost frame hf hp => exact he
    | sent frame hf len hp ha hpl =>
      let emptied := remote.withConsumer sess.consumerId { cons with queue := [] }
      have han : (emptied.clients sess.outbound).alive := ha
      have hse : Owned (emptied.trySend sess.outbound (frameMessage id len frame)).1 :=
        he.trySend (h.not_starting hm) _
      rw [trySend_of_place han hpl] at hse
      exact hse
    | full frame hf len hp ha hfu => exact h.withConsumer hs ho
    | gone frame hf len hp ha => exact he.removeSession id

/-! The broker. -/

variable {sessions : List (ℕ × RemoteSession)}

theorem Held.map {consumers : List (ℕ × CaptureConsumer B S)} (h : Held sessions consumers)
    (f : CaptureConsumer B S → CaptureConsumer B S) (hf : ∀ cons,
      (f cons).outputId = cons.outputId) :
    Held sessions (consumers.map fun e => (e.1, f e.2)) := by
  obtain ⟨hs, rfl⟩ | ⟨id, sess, cons, hs, rfl, ho⟩ := h
  · exact .inl ⟨hs, rfl⟩
  · exact .inr ⟨id, sess, f cons, hs, rfl, (hf cons).trans ho⟩

theorem Owned.broker (h : Owned remote) {broker : OutputCaptureBroker B S}
    (hh : Held remote.sessions broker.consumers) (published : ℕ → Option B) :
    Owned { remote with broker, published } :=
  ⟨h.serial, hh, h.known, h.starts⟩

theorem held_publish [BEq S] {broker : OutputCaptureBroker B S} (h : Held sessions broker.consumers)
    (outputId : ℕ) (buf : B) (geo : CaptureGeometry S) (dmg : List Rectangle) (capturedAt : ℕ) :
    Held sessions (broker.publish outputId buf geo dmg capturedAt).1.consumers := by
  unfold publish
  split
  · dsimp only [mapConsumers]
    refine h.map (fun cons =>
      if cons.outputId = outputId then cons.publish _ else cons) fun cons => ?_
    split
    · exact CaptureConsumer.outputId_publish _ _
    · rfl
  · exact h

theorem owned_step [BEq S] {ev : RemoteEvent B S} (hs : remote.step ev = some next)
    (h : Owned remote) : Owned next := by
  cases ev with
  | accept => exact h.accept hs
  | request c request => exact h.request hs
  | recv c => exact h.recv hs
  | write c wr spn => exact h.write hs
  | read c request => exact h.read hs
  | drainCommand =>
    cases drained_drainCommand hs with
    | start outputId c rest hc => exact h.drainStart hc
    | disconnected id rest hc => exact h.drainDisconnected hc
    | stop id rest hc => exact h.drainStop hc
  | exportFrames readback sealed =>
    cases hs
    exact h.exportFrames readback sealed
  | publish outputId buf geo dmg capturedAt =>
    cases hs
    exact h.broker (held_publish h.held outputId buf geo dmg capturedAt) _
  | invalidateOutput outputId =>
    cases hs
    have hh := h.held.map (fun cons =>
      if cons.outputId = outputId then cons.invalidate else cons) fun cons => by
        split <;> rfl
    exact h.broker hh _
  | invalidateAll =>
    cases hs
    exact h.broker (h.held.map CaptureConsumer.invalidate fun _ => rfl) _
  | setOutputs outputs =>
    cases hs
    exact ⟨h.serial, h.held, h.known, h.starts⟩

theorem owned_start (outputs : ℕ → Option (CaptureGeometry S)) :
    Owned (Remote.start outputs : Remote B S) := by
  refine ⟨fun c hc => ?_, .inl ⟨rfl, rfl⟩, by simp [Remote.start], fun pre after _ _ h => ?_⟩
  · cases hc
  · have hl := congrArg List.length h
    simp [Remote.start] at hl

/-- No session is left of a client, and every consumer belongs to a session of another one. -/
def NothingRemains (remote : Remote B S) (c : ℕ) : Prop :=
  (∀ entry ∈ remote.sessions, entry.2.outbound ≠ c) ∧
    ∀ consumer ∈ remote.broker.consumers, ∃ entry ∈ remote.sessions,
      entry.2.consumerId = consumer.1 ∧ entry.2.outbound ≠ c

/-- Once a thread has returned and all commands are taken, nothing remains of its client. -/
theorem Owned.nothingRemains (h : Owned remote) (hr : (remote.clients c).alive = false)
    (hd : remote.commands = []) : NothingRemains remote c := by
  have ho : ∀ e ∈ remote.sessions, e.2.outbound ≠ c := by
    intro e he hs
    obtain hk | ⟨-, -, hcm⟩ := h.known e he
    · have ha := Client.alive_of_knows hk
      rw [hs, hr] at ha
      cases ha
    · rw [hd] at hcm
      cases hcm
  refine ⟨ho, fun cons hco => ?_⟩
  obtain ⟨-, hn⟩ | ⟨id, sess, found, hse, hc, -⟩ := h.held
  · rw [hn] at hco
    cases hco
  · have he : (id, sess) ∈ remote.sessions := by simp [hse]
    rw [hc] at hco
    obtain rfl := mem_singleton.mp hco
    exact ⟨_, he, rfl, ho _ he⟩

end FocalDesk.Capture
