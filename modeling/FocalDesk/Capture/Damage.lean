import FocalDesk.Capture.Reconstruction
import FocalDesk.Capture.Sessions

/-! Whether the damage of the frames that clients get covers what has changed. -/
namespace FocalDesk.Capture
open Library List Option Function CaptureConsumer

variable {B S C : Type} {content : B → Pixel → C} {latest published : Option B}
  {remote next : Remote B S} {c sid : ℕ} {frame : CaptureFrame B S}
  {consumer csr : CaptureConsumer B S} {damage : List Rectangle}
  {msgs more : List (RemoteOutbound B S)}

def DamageRect.Covers (rect : DamageRect) (p : Pixel) : Prop :=
  rect.x ≤ p.1 ∧ p.1 < rect.x + rect.width ∧ rect.y ≤ p.2 ∧ p.2 < rect.y + rect.height

/-- A pixel of an output of this size. -/
def Inside (width height : ℤ) (p : Pixel) : Prop :=
  0 ≤ p.1 ∧ p.1 < width ∧ 0 ≤ p.2 ∧ p.2 < height

/-- A frame is complete, or its damage covers what differs from the one before. -/
def Usable (content : B → Pixel → C) (latest : Option B) (frame : FrameReady S) (buffer : B) :
    Prop :=
  frame.fullRefresh = true ∨ ∃ before, latest = some before ∧
    ∀ p, Inside frame.width frame.height p → content before p ≠ content buffer p →
      ∃ rect ∈ frame.damage, rect.Covers p

/-- Each frame among the messages can be used after the one before. -/
def Delivers (content : B → Pixel → C) : Option B → List (RemoteOutbound B S) → Prop
  | _, [] => True
  | latest, message :: messages =>
    match message.event, message.fd with
    | .frameReady frame, some buffer =>
      Usable content latest frame buffer ∧ Delivers content (some buffer) messages
    | _, _ => Delivers content latest messages

/-- The buffer of the last frame among the messages, or what there was before. -/
def lastShown (latest : Option B) : List (RemoteOutbound B S) → Option B
  | [] => latest
  | message :: messages =>
    match message.event, message.fd with
    | .frameReady _, some buffer => lastShown (some buffer) messages
    | _, _ => lastShown latest messages

theorem delivers_append : Delivers content latest (msgs ++ more) ↔
    Delivers content latest msgs ∧ Delivers content (lastShown latest msgs) more := by
  induction msgs generalizing latest with
  | nil => simp [Delivers, lastShown]
  | cons msg msgs ih =>
    obtain ⟨ev, fd⟩ := msg
    cases ev with
    | frameReady frame =>
      cases fd with
      | none => exact ih
      | some buffer => simp only [cons_append, Delivers, lastShown, ih, and_assoc]
    | captureStarted id outputId width h' scale transform => exact ih
    | captureStopped id => exact ih
    | error msg => exact ih

theorem lastShown_append : lastShown latest (msgs ++ more) =
    lastShown (lastShown latest msgs) more := by
  induction msgs generalizing latest with
  | nil => rfl
  | cons msg msgs ih =>
    obtain ⟨ev, fd⟩ := msg
    cases ev with
    | frameReady frame =>
      cases fd with
      | none => exact ih
      | some buffer => exact ih
    | captureStarted id outputId width h' scale transform => exact ih
    | captureStopped id => exact ih
    | error msg => exact ih

theorem Delivers.of_initial (h : Delivers content latest more) (hi : msgs <+: more) :
    Delivers content latest msgs := by
  obtain ⟨rest, rfl⟩ := hi
  exact ((delivers_append).mp h).1

/-- A message without a frame changes nothing. -/
theorem Delivers.event (h : Delivers content latest msgs) {ev : Event S}
    (he : ∀ frame, ev ≠ .frameReady frame) :
    Delivers content latest (msgs ++ [⟨ev, none⟩]) ∧
      lastShown latest (msgs ++ [⟨ev, none⟩]) = lastShown latest msgs := by
  rw [delivers_append, lastShown_append]
  cases ev with
  | frameReady frame => exact absurd rfl (he frame)
  | captureStarted id outputId width h' scale transform => exact ⟨⟨h, trivial⟩, rfl⟩
  | captureStopped id => exact ⟨⟨h, trivial⟩, rfl⟩
  | error msg => exact ⟨⟨h, trivial⟩, rfl⟩

/-! The queue of a consumer. -/

/-- What the damage covers of the output it still covers without the rectangles that have a
negative coordinate or size. -/
def Convertible (damage : List Rectangle) (geometry : CaptureGeometry S) : Prop :=
  ∀ p, Inside geometry.width geometry.height p → Damaged damage p →
    ∃ rect ∈ damage.filterMap DamageRect.ofRectangle, rect.Covers p

/-- The newest frame of the queue can be used, and leads to what was published last. -/
structure Ready (content : B → Pixel → C) (latest : Option B) (consumer : CaptureConsumer B S)
    (published : Option B) : Prop where
  limit : 1 ≤ consumer.queueLimit
  single : ∀ frame, consumer.queue = [frame] → Follows content latest frame
  converts : ∀ frame ∈ consumer.queue,
    frame.fullRefresh = true ∨ Convertible frame.damage frame.geometry
  upToDate : consumer.needsFullRefresh = false → ∃ b last, published = some b ∧
    lastBuffer latest consumer.queue = some last ∧ content last = content b

theorem covers_ofRectangle {rect : Rectangle} {converted : DamageRect} {p : Pixel}
    (h : DamageRect.ofRectangle rect = some converted) (hp : rect.Covers p) :
    converted.Covers p := by
  unfold DamageRect.ofRectangle at h
  split at h
  · cases h
    obtain ⟨hx, hx', hy, hy'⟩ := hp
    refine ⟨?_, ?_, ?_, ?_⟩ <;> dsimp only <;> omega
  · cases h

/-- No rectangle with a negative coordinate or size covers a pixel of the output. -/
theorem convertible_of_forall {geometry : CaptureGeometry S}
    (h : ∀ rect ∈ damage, (DamageRect.ofRectangle rect).isSome ∨
      ∀ p, Inside geometry.width geometry.height p → ¬ rect.Covers p) :
    Convertible damage geometry := by
  rintro p hi ⟨rect, hr, hco⟩
  obtain hs | hout := h rect hr
  · obtain ⟨converted, hc⟩ := isSome_iff_exists.mp hs
    exact ⟨converted, mem_filterMap.mpr ⟨rect, hr, hc⟩, covers_ofRectangle hc hco⟩
  · exact absurd hco (hout p hi)

namespace Ready

theorem registered {queueDepth : ℕ} (hd : 1 ≤ queueDepth) (outputId : ℕ) :
    Ready content latest (.register outputId queueDepth : CaptureConsumer B S) published :=
  ⟨hd, nofun, nofun, nofun⟩

theorem cleared (h : Ready content latest csr published) (latest' published' : Option B) :
    Ready content latest' csr.requestFullRefresh published' :=
  ⟨h.limit, nofun, nofun, nofun⟩

theorem invalidated (h : Ready content latest csr published) :
    Ready content latest csr.invalidate published :=
  ⟨h.limit, nofun, nofun, nofun⟩

/-- The newest frame as it is sent, and the queue without it. -/
theorem taken (h : Ready content latest csr published) (hl : csr.latest = some frame)
    (sid len : ℕ) :
    Delivers content latest [frameMessage sid len frame] ∧
      Ready content (some frame.buffer) { csr with queue := [] } published := by
  obtain ⟨newest, hn, ht⟩ := map_eq_some_iff.mp hl
  have hb : frame.buffer = newest.buffer := by
    rw [← ht]
    split <;> rfl
  refine ⟨⟨?_, trivial⟩, h.limit, nofun, nofun, fun hne => ?_⟩
  · by_cases hle : 1 < csr.queue.length
    · rw [if_pos hle] at ht
      exact .inl (ht ▸ rfl)
    · rw [if_neg hle] at ht
      subst ht
      have hq : csr.queue = [newest] := by
        rcases hq : csr.queue with _ | ⟨fst, _ | ⟨snd, rest⟩⟩
        · rw [hq] at hn
          cases hn
        · rw [hq] at hn
          cases hn
          rfl
        · rw [hq] at hle
          simp at hle
      have hc := h.converts newest (hq ▸ mem_singleton_self _)
      obtain hf | ⟨pre, hp, hco⟩ := h.single newest hq
      · exact .inl hf
      · obtain hf | hc := hc
        · exact .inl hf
        · refine .inr ⟨pre, hp, fun p hi hd => ?_⟩
          have hin : Inside newest.geometry.width newest.geometry.height p := by
            obtain ⟨hx, hx', hy, hy'⟩ := hi
            dsimp only at hx' hy'
            refine ⟨hx, ?_, hy, ?_⟩ <;> omega
          refine hc p hin ?_
          by_contra hno
          exact hd (hco p hno)
  · obtain ⟨b, last, hpu, hla, hcn⟩ := h.upToDate hne
    refine ⟨b, last, hpu, ?_, hcn⟩
    rw [hb]
    simpa [lastBuffer, hn] using hla

theorem emptied (h : Ready content latest csr published) (hl : csr.latest = none) :
    Ready content latest { csr with queue := [] } published := by
  have hq : csr.queue = [] := getLast?_eq_none_iff.mp (map_eq_none_iff.mp hl)
  refine ⟨h.limit, nofun, nofun, fun hn => ?_⟩
  obtain ⟨b, last, hp, hla, hc⟩ := h.upToDate hn
  exact ⟨b, last, hp, hq ▸ hla, hc⟩

theorem publish [BEq S] (h : Ready content latest csr published)
    (hc : ∀ b, published = some b → CoversChange content frame.damage b frame.buffer)
    (hcv : Convertible frame.damage frame.geometry) :
    Ready content latest (csr.publish frame) (some frame.buffer) := by
  unfold CaptureConsumer.publish
  cases hs : csr.skips frame.geometry frame.damage with
  | true =>
    rw [if_pos rfl]
    refine ⟨h.limit, h.single, h.converts, fun hne => ?_⟩
    obtain ⟨b, last, hpu, hl, hco⟩ := h.upToDate hne
    refine ⟨frame.buffer, last, rfl, hl, hco.trans ?_⟩
    -- Without damage the buffers are the same.
    funext p
    apply hc b hpu
    have hn : frame.damage = [] := by
      simp only [CaptureConsumer.skips, Bool.and_eq_true, decide_eq_true_eq] at hs
      exact hs.1.1
    rintro ⟨rect, hr, -⟩
    rw [hn] at hr
    cases hr
  | false =>
    rw [if_neg Bool.false_ne_true]
    dsimp only
    cases hfu : csr.queueFull with
    | true =>
      rw [Bool.or_true, if_pos rfl, if_pos rfl]
      refine ⟨h.limit, fun found hf => ?_, fun found hf => ?_, fun _ => ?_⟩
      · rw [append_eq_singleton_iff] at hf
        obtain ⟨-, hf⟩ | ⟨-, hn⟩ := hf
        · cases hf
          exact follows_full _ frame
        · cases hn
      · obtain hf | hf := mem_append.mp hf
        · exact h.converts found (mem_of_mem_tail hf)
        · rw [mem_singleton.mp hf]
          exact .inl rfl
      · exact ⟨frame.buffer, frame.buffer, rfl, lastBuffer_append _ _ _, rfl⟩
    | false =>
      rw [Bool.or_false, if_neg Bool.false_ne_true]
      refine ⟨h.limit, fun found hf => ?_, fun found hf => ?_, fun _ => ?_⟩
      · obtain ⟨hq, hf⟩ | ⟨-, hn⟩ := append_eq_singleton_iff.mp hf
        · split at hf
          · cases hf
            exact follows_full _ frame
          · rename_i hcn
            cases hf
            rw [Bool.or_eq_true, not_or] at hcn
            obtain ⟨b, last, hpu, hl, hco⟩ := h.upToDate (Bool.eq_false_iff.mpr hcn.1)
            rw [hq] at hl
            refine .inr ⟨last, hl, fun p hp => ?_⟩
            rw [hco]
            exact hc b hpu p hp
        · cases hn
      · obtain hf | hf := mem_append.mp hf
        · exact h.converts found hf
        · rw [mem_singleton.mp hf]
          split
          · exact .inl rfl
          · exact .inr hcv
      · refine ⟨frame.buffer, frame.buffer, rfl, ?_, rfl⟩
        rw [lastBuffer_append]
        split <;> rfl

end Ready

/-! Runs. -/

/-- All messages for a client: those it got and those on the way. -/
def Client.allMessages (client : Client B S) : List (RemoteOutbound B S) :=
  match client.phase with
  | .refusing message => client.received ++ message :: client.incoming
  | .greeting _ message => client.received ++ message :: client.incoming
  | .sending _ message => client.received ++ message :: client.incoming
  | _ => client.received ++ client.incoming

theorem Client.received_initial (cl : Client B S) : cl.received <+: cl.allMessages := by
  unfold Client.allMessages
  split <;> exact prefix_append _ _

theorem Client.allMessages_push (cl : Client B S) (msg : RemoteOutbound B S) :
    Client.allMessages { cl with incoming := cl.incoming ++ [msg] } = cl.allMessages ++ [msg] := by
  obtain ⟨phase, reader, incoming, recv, connected⟩ := cl
  cases phase <;> simp [Client.allMessages]

/-- Every client can use the frames that it gets, and the consumer of a session is ready for the
next one. -/
structure Fresh (content : B → Pixel → C) (remote : Remote B S) : Prop where
  delivers : ∀ c, Delivers content none (remote.clients c).allMessages
  ready : ∀ id session consumer, remote.sessions = [(id, session)] →
    remote.broker.consumers = [(session.consumerId, consumer)] →
      (remote.clients session.outbound).alive = true →
        Ready content (lastShown none (remote.clients session.outbound).allMessages) consumer
          (remote.published session.outputId)

/-- Clients go on, and the client of a session has the messages that it had. -/
theorem Fresh.clients (h : Fresh content remote) (ho : Owned remote)
    (hse : next.sessions = remote.sessions) (hc : next.broker.consumers = remote.broker.consumers)
    (hpu : next.published = remote.published)
    (hd : ∀ c, Delivers content none (next.clients c).allMessages)
    (ha : ∀ c id, (remote.clients c).knows = some id ∨ (remote.clients c).alive = false →
      (next.clients c).alive → c < remote.accepted → (remote.clients c).alive ∧
        (next.clients c).allMessages = (remote.clients c).allMessages) : Fresh content next := by
  refine ⟨hd, ?_⟩
  intro id sess csr hid hco hn
  rw [hse] at hid
  rw [hc] at hco
  have hp : (remote.clients sess.outbound).alive ∧
      (next.clients sess.outbound).allMessages = (remote.clients sess.outbound).allMessages := by
    obtain hk | ⟨hg, hlt, -⟩ := ho.known (id, sess) (by simp [hid])
    · have hs := ho.serial _ (Client.alive_of_knows hk)
      dsimp only at hs
      exact ha _ id (.inl hk) hn (by omega)
    · exact ha _ id (.inr hg) hn hlt
  rw [hp.2, hpu]
  exact h.ready id sess csr hid hco hp.1

/-- One client goes on. -/
theorem Fresh.thread (h : Fresh content remote) (ho : Owned remote) (c : ℕ) (cl : Client B S)
    (commands : List RemoteCommand) (ha : cl.alive → (remote.clients c).alive)
    (hde : Delivers content none cl.allMessages)
    (hs : ∀ id, (remote.clients c).knows = some id → cl.alive →
      cl.allMessages = (remote.clients c).allMessages) :
    Fresh content { remote with clients := update remote.clients c cl, commands } := by
  refine h.clients ho rfl rfl rfl (fun d => ?_) fun d id hid hd _ => ?_
  · by_cases hdc : d = c
    · subst hdc
      simpa using hde
    · simpa [hdc] using h.delivers d
  · by_cases hdc : d = c
    · subst hdc
      simp only [update_self] at hd ⊢
      refine ⟨ha hd, ?_⟩
      obtain hk | hgone := hid
      · exact hs id hk hd
      · have hn := ha hd
        rw [hgone] at hn
        cases hn
    · simp only [update_of_ne hdc] at hd ⊢
      exact ⟨hd, trivial⟩

theorem Fresh.setClient (h : Fresh content remote) (ho : Owned remote) (c : ℕ) (cl : Client B S)
    (ha : cl.alive → (remote.clients c).alive)
    (hs : cl.allMessages = (remote.clients c).allMessages) :
    Fresh content (remote.setClient c cl) :=
  h.thread ho c cl remote.commands ha (hs ▸ h.delivers c) fun _ _ _ => hs

/-- The thread of a client returns. What it has got before stays. -/
theorem Fresh.finish (h : Fresh content remote) (ho : Owned remote) (c : ℕ) (cl : Client B S)
    (commands : List RemoteCommand) (hi : cl.received <+: (remote.clients c).allMessages) :
    Fresh content
      { remote with clients := update remote.clients c cl.finish, commands } := by
  refine h.thread ho c _ commands (fun ha => ?_) ?_ fun _ _ ha => ?_
  · cases ha
  · have hr : cl.finish.allMessages = cl.received := by
      simp [Client.allMessages, Client.finish]
    rw [hr]
    exact (h.delivers c).of_initial hi
  · cases ha

/-- A new client has no messages, and no session is that of it. -/
theorem Fresh.accept (h : Fresh content remote) (ho : Owned remote)
    (hst : remote.accept = some next) : Fresh content next := by
  obtain ⟨-, rfl⟩ := accept_eq_some hst
  refine h.clients ho rfl rfl rfl (fun d => ?_) fun d id _ hd hlt => ?_
  · by_cases hs : d = remote.accepted
    · subst hs
      simp [Remote.setClient, Client.allMessages, Delivers]
    · simpa [Remote.setClient, hs] using h.delivers d
  · have hne : d ≠ remote.accepted := Nat.ne_of_lt hlt
    simp only [Remote.setClient, update_of_ne hne] at hd ⊢
    exact ⟨hd, trivial⟩

/-- A client that knows no session goes on with a message about its failure in hand. -/
theorem Fresh.refuse (h : Fresh content remote) (ho : Owned remote)
    (hr : (remote.clients c).phase = .reading) (msg : String) :
    Fresh content (remote.setClient c
      { remote.clients c with phase := .refusing ⟨.error msg, none⟩ }) := by
  refine h.thread ho c _ remote.commands (fun _ => by simp [Client.alive, hr]) ?_ fun id hid _ => ?_
  · have hd := h.delivers c
    simp only [Client.allMessages, hr] at hd
    rw [delivers_append] at hd
    exact (delivers_append).mpr ⟨hd.1, hd.2⟩
  · simp [Client.knows, hr] at hid

theorem Fresh.request (h : Fresh content remote) (ho : Owned remote) {req : Option Request}
    (hs : remote.request c req = some next) : Fresh content next := by
  cases requested_request hs with
  | failed hp => exact h.finish ho c _ remote.commands (remote.clients c).received_initial
  | refused hp => exact h.refuse ho hp _
  | started hp outputId =>
    refine h.thread ho c _ _ (fun _ => by simp [Client.alive, hp]) ?_ fun id hid _ => ?_
    · refine (h.delivers c).of_initial ?_
      simp [Client.allMessages, hp]
    · simp [Client.knows, hp] at hid

/-- The next message is in hand. -/
theorem Fresh.recv (h : Fresh content remote) (ho : Owned remote) (hst : remote.recv c = some next)
    : Fresh content next := by
  cases received_recv hst with
  | greeting id msg incoming hp hi hs =>
    refine h.setClient ho c _ (fun _ => by simp [Client.alive, hp]) ?_
    simp [Client.allMessages, hp, hi]
  | refusing msg incoming hp hi hs =>
    refine h.setClient ho c _ (fun _ => by simp [Client.alive, hp]) ?_
    simp [Client.allMessages, hp, hi]
  | abandoned hp hi hse =>
    exact h.finish ho c _ remote.commands (remote.clients c).received_initial
  | sending id msg incoming hp hi =>
    refine h.setClient ho c _ (fun _ => by simp [Client.alive, hp]) ?_
    simp [Client.allMessages, hp, hi]
  | closed id hp hi hse =>
    exact h.finish ho c _ _ (remote.clients c).received_initial

/-- The message in hand is among those that the client has got. -/
theorem Fresh.write (h : Fresh content remote) (ho : Owned remote) {wr : Written}
    {spn : Bool} (hs : remote.write c wr spn = some next) :
    Fresh content next := by
  cases wrote_write hs with
  | refused msg hp =>
    refine h.finish ho c _ remote.commands ?_
    simp [Client.allMessages, hp]
  | unheard msg hp =>
    exact h.finish ho c _ remote.commands (remote.clients c).received_initial
  | greeted id msg hp spn =>
    refine h.setClient ho c _ (fun _ => by simp [Client.alive, hp]) ?_
    simp [Client.allMessages, hp]
  | ended id msg hp ht =>
    refine h.finish ho c _ _ ?_
    simp [Client.allMessages, hp]
  | sent id msg hp ht =>
    refine h.setClient ho c _ (fun _ => by simp [Client.alive, hp]) ?_
    simp [Client.allMessages, hp]
  | failed id hk hp hw =>
    exact h.finish ho c _ _ (remote.clients c).received_initial

theorem Fresh.read (h : Fresh content remote) (ho : Owned remote) {req : Option Request}
    (hs : remote.read c req = some next) : Fresh content next := by
  have hr : ∀ reader connected commands, Fresh content { remote with
      clients := update remote.clients c { remote.clients c with reader, connected }
      commands } :=
    fun _ _ commands => h.thread ho c _ commands (fun ha => ha) (h.delivers c) fun _ _ _ => rfl
  cases hasRead_read hs with
  | ignored => exact h
  | stopped id hre => exact hr _ _ _
  | ended id hre => exact hr _ _ _

/-- A message without a frame is on its way to a client. -/
theorem Fresh.trySend (h : Fresh content remote) (c : ℕ) {ev : Event S}
    (he : ∀ frame, ev ≠ .frameReady frame) :
    Fresh content (remote.trySend c ⟨ev, none⟩).1 := by
  unfold Remote.trySend
  dsimp only
  split
  · exact h
  · split
    · exact h
    · obtain ⟨hd, hsh⟩ := (h.delivers c).event he
      refine ⟨fun d => ?_, fun id sess csr hid hc hn => ?_⟩
      · by_cases hs : d = c
        · subst hs
          simpa [Remote.setClient, Client.allMessages_push] using hd
        · simpa [Remote.setClient, hs] using h.delivers d
      · by_cases hs : sess.outbound = c
        · subst hs
          simp only [Remote.setClient, update_self] at hn ⊢
          rw [Client.allMessages_push, hsh]
          exact h.ready id sess csr hid hc hn
        · simp only [Remote.setClient, update_of_ne hs] at hn ⊢
          exact h.ready id sess csr hid hc hn

/-- Without a session no consumer has to be ready. -/
theorem Fresh.removeSession (h : Fresh content remote)
    (hh : Held remote.sessions remote.broker.consumers) (sid : ℕ) :
    Fresh content (remote.removeSession sid) := by
  unfold Remote.removeSession
  split
  · exact h
  · rename_i session hs
    refine ⟨h.delivers, fun id other csr hid _ _ => ?_⟩
    obtain ⟨hn, -⟩ | ⟨found, held, -, hse, -⟩ := hh
    · simp [hn, getKey] at hs
    · rw [hse, getKey_cons] at hs
      split at hs
      · rename_i hsa
        subst hsa
        simp [hse, removeKey] at hid
      · cases hs

theorem Fresh.pop (h : Fresh content remote) (commands : List RemoteCommand) :
    Fresh content { remote with commands } := ⟨h.delivers, h.ready⟩

/-- A new consumer has to be given a full refresh. -/
theorem Fresh.drainStart (h : Fresh content remote) (ho : Owned remote) {outputId : ℕ}
    {rest : List RemoteCommand} (hcm : remote.commands = .start outputId c :: rest) :
    Fresh content (({ remote with commands := rest } : Remote B S).startSession outputId c) := by
  obtain ⟨hse, hc, hph, hi, -⟩ := ho.before_start hcm
  have ha : (remote.clients c).alive := by simp [Client.alive, hph]
  have hd : ∀ ev : Event S, (∀ frame, ev ≠ .frameReady frame) → ∀ d,
      Delivers content none (update remote.clients c
        { remote.clients c with incoming := [⟨ev, none⟩] } d).allMessages := by
    intro ev he d
    by_cases hsa : d = c
    · subst hsa
      have hp := ((h.delivers d).event he).1
      rw [← Client.allMessages_push, hi] at hp
      simpa using hp
    · simpa [hsa] using h.delivers d
  obtain ⟨msg, heq⟩ | ⟨broker, cid, std, hb, hs, heq⟩ :=
    startSession_cases ({ remote with commands := rest } : Remote B S) outputId hse hc ha hi
  · rw [heq]
    refine ⟨hd _ fun _ hf => ?_, fun id sess csr hid => ?_⟩
    · cases hf
    · simp [Remote.setClient, hse] at hid
  · rw [heq]
    refine ⟨hd std fun frame hf => ?_, fun id sess csr _ hco _ => ?_⟩
    · rw [hf] at hs
      cases hs
    · have hr := hb.symm.trans hco
      cases hr
      exact .registered (Nat.le_succ 1) outputId

theorem Fresh.stopSession (h : Fresh content remote)
    (hh : Held remote.sessions remote.broker.consumers) (sid : ℕ) :
    Fresh content (remote.stopSession sid) := by
  unfold Remote.stopSession
  split
  · exact h
  · exact (h.removeSession hh sid).trySend _ nofun

/-- Every consumer changes, and keeps ready. -/
theorem Fresh.map (h : Fresh content remote) (f : CaptureConsumer B S → CaptureConsumer B S)
    {broker : OutputCaptureBroker B S} {published : ℕ → Option B}
    (hb : broker.consumers = remote.broker.consumers.map fun e => (e.1, f e.2))
    (hr : ∀ latest id sess csr, remote.sessions = [(id, sess)] →
      remote.broker.consumers = [(sess.consumerId, csr)] →
        Ready content latest csr (remote.published sess.outputId) →
          Ready content latest (f csr) (published sess.outputId)) :
    Fresh content { remote with broker, published } := by
  refine ⟨h.delivers, fun id sess csr hid hc hn => ?_⟩
  obtain ⟨⟨key, pre⟩, hp, hm⟩ := map_eq_singleton_iff.mp (hb.symm.trans hc)
  cases hm
  exact hr _ id sess pre hid hp (h.ready id sess pre hid hp hn)

namespace Remote

/-- What is published comes with damage that covers the change. -/
def Covered (content : B → Pixel → C) (remote : Remote B S) : RemoteEvent B S → Prop
  | .publish outputId buffer _ damage _ =>
    ∀ b, remote.published outputId = some b → CoversChange content damage b buffer
  | _ => True

/-- What the damage covers of the output it covers without the rectangles that have a negative
coordinate or size, and the pixels of every frame that is taken can be read and sealed. -/
def KeepsUpdates (remote : Remote B S) : RemoteEvent B S → Prop
  | .publish _ _ geometry damage _ => Convertible damage geometry
  | .exportFrames readback sealed => ∀ sessionId session consumer,
    remote.sessions = [(sessionId, session)] →
      remote.broker.consumers = [(session.consumerId, consumer)] → consumer.queue ≠ [] →
        (readback sessionId).bind (sealedMemfd (sealed sessionId)) ≠ none
  | _ => True

end Remote

theorem Fresh.publish [BEq S] (h : Fresh content remote) (ho : Owned remote) (outputId : ℕ)
    (buffer : B) (geometry : CaptureGeometry S) (damage : List Rectangle) (capturedAt : ℕ)
    (hcv : remote.Covered content (.publish outputId buffer geometry damage capturedAt))
    (hcn : Convertible damage geometry) :
    Fresh content { remote with
      broker := (remote.broker.publish outputId buffer geometry damage capturedAt).1
      published := update remote.published outputId (some buffer) } := by
  have hf : ∀ (serial : ℕ) latest (sess : RemoteSession) csr,
      Ready content latest csr (remote.published sess.outputId) →
        sess.outputId = outputId →
          Ready content latest (csr.publish
            { outputId, serial, capturedAt, geometry, buffer, damage, fullRefresh := false })
            (some buffer) := by
    intro serial latest sess csr hr hou
    refine hr.publish ?_ hcn
    rw [hou]
    exact hcv
  -- The consumer is the one of the session.
  have hou : ∀ id sess csr, remote.sessions = [(id, sess)] →
      remote.broker.consumers = [(sess.consumerId, csr)] →
        csr.outputId = sess.outputId := by
    intro id sess csr hid hc
    obtain ⟨hn, -⟩ | ⟨_, _, _, hse, hco, hs⟩ := ho.held
    · rw [hn] at hid
      cases hid
    · cases hse.symm.trans hid
      cases hco.symm.trans hc
      exact hs
  unfold OutputCaptureBroker.publish
  cases ha : remote.broker.hasPublishableConsumer outputId geometry damage with
  | true =>
    rw [if_pos rfl]
    refine h.map (fun csr =>
      if csr.outputId = outputId then csr.publish _ else csr) rfl
        fun latest id sess csr hid hc hr => ?_
    have hs := hou id sess csr hid hc
    by_cases ht : sess.outputId = outputId
    · rw [if_pos (hs.trans ht), ht, update_self]
      exact hf _ latest sess csr hr ht
    · rw [if_neg (hs ▸ ht), update_of_ne ht]
      exact hr
  | false =>
    rw [if_neg Bool.false_ne_true]
    refine h.map id (by simp) fun latest id sess csr hid hc hr => ?_
    have hs := hou id sess csr hid hc
    by_cases ht : sess.outputId = outputId
    · have hsk := hf 0 latest sess csr hr ht
      have hg : getKey sess.consumerId remote.broker.consumers = some csr := by
        rw [hc, getKey_cons, if_pos rfl]
      have hsi := Capturing.skips_of_not_publishable ha hg (hs.trans ht)
      rw [CaptureConsumer.publish, if_pos hsi] at hsk
      rw [ht, update_self]
      exact hsk
    · rw [update_of_ne ht]
      exact hr

/-- The consumer of the one session is in another state. -/
theorem Fresh.withConsumer (h : Fresh content remote) {sess : RemoteSession}
    (hs : remote.sessions = [(sid, sess)]) {csr : CaptureConsumer B S}
    (hr : (remote.clients sess.outbound).alive →
      Ready content (lastShown none (remote.clients sess.outbound).allMessages) csr
        (remote.published sess.outputId)) :
    Fresh content (remote.withConsumer sess.consumerId csr) := by
  refine ⟨h.delivers, fun id other found hid hf hn => ?_⟩
  cases hs.symm.trans hid
  cases hf
  exact hr hn

/-- A frame that was taken is on its way to the client. -/
theorem Fresh.sent (h : Fresh content remote) {sess : RemoteSession}
    {csr : CaptureConsumer B S} (hse : remote.sessions = [(sid, sess)])
    (hr : Ready content (lastShown none (remote.clients sess.outbound).allMessages) csr
      (remote.published sess.outputId)) (hf : csr.latest = some frame) (len : ℕ) :
    Fresh content ((remote.withConsumer sess.consumerId { csr with queue := [] }).setClient
      sess.outbound { remote.clients sess.outbound with
        incoming := (remote.clients sess.outbound).incoming ++
          [frameMessage sid len frame] }) := by
  obtain ⟨hu, he⟩ := hr.taken hf sid len
  refine ⟨fun d => ?_, fun id other found hid hfo _ => ?_⟩
  · by_cases hs : d = sess.outbound
    · subst hs
      simp only [Remote.setClient, update_self]
      rw [Client.allMessages_push]
      exact (delivers_append).mpr ⟨h.delivers _, hu⟩
    · simpa [Remote.setClient, Remote.withConsumer, hs] using h.delivers d
  · cases hse.symm.trans hid
    cases hfo
    simp only [Remote.setClient, update_self]
    rw [Client.allMessages_push, lastShown_append]
    exact he

theorem Fresh.exportFrames (h : Fresh content remote) (ho : Owned remote) (readback : ℕ → Option ℕ)
    (sealed : ℕ → Bool) (hk : remote.KeepsUpdates (.exportFrames readback sealed)) :
    Fresh content (remote.exportFrames readback sealed) := by
  obtain ⟨hsa, -⟩ | ⟨id, sess, csr, res, hs, hc, hou,
    he, heq⟩ := exportFrames_cases ho.held readback sealed
  · rw [hsa]
    exact h
  · rw [heq]
    have hr := h.ready id sess csr hs hc
    cases he with
    | idle hno => exact h.withConsumer hs fun hn => (hr hn).emptied hno
    | lost frame hf hp =>
      refine absurd hp (hk id sess csr hs hc ?_)
      intro hep
      simp [latest, hep] at hf
    | sent frame hf len hp ha hpl =>
      exact h.sent hs (hr ha) hf len
    | full frame hf len hp ha hfu =>
      exact h.withConsumer hs fun hn => (hr hn).cleared _ _
    | gone frame hf len hp ha =>
      have hem : Fresh content
          (remote.withConsumer sess.consumerId { csr with queue := [] }) := by
        refine h.withConsumer hs fun hn => ?_
        rw [ha] at hn
        cases hn
      exact hem.removeSession (.inr ⟨id, sess, _, hs, rfl, hou⟩) id

theorem fresh_step [BEq S] {ev : RemoteEvent B S} (hs : remote.step ev = some next)
    (hok : remote.Covered content ev ∧ remote.KeepsUpdates ev)
    (h : Owned remote ∧ Fresh content remote) : Owned next ∧ Fresh content next := by
  refine ⟨owned_step hs h.1, ?_⟩
  obtain ⟨ho, h⟩ := h
  cases ev with
  | accept => exact h.accept ho hs
  | request c request => exact h.request ho hs
  | recv c => exact h.recv ho hs
  | write c wr spn => exact h.write ho hs
  | read c request => exact h.read ho hs
  | drainCommand =>
    cases drained_drainCommand hs with
    | start outputId c rest hc => exact h.drainStart ho hc
    | disconnected id rest hc => exact (h.pop rest).removeSession ho.held id
    | stop id rest hc => exact (h.pop rest).stopSession ho.held id
  | exportFrames readback sealed =>
    cases hs
    exact h.exportFrames ho readback sealed hok.2
  | publish outputId buffer geometry damage capturedAt =>
    cases hs
    exact h.publish ho outputId buffer geometry damage capturedAt hok.1 hok.2
  | invalidateOutput outputId =>
    cases hs
    refine h.map (fun csr =>
      if csr.outputId = outputId then csr.invalidate else csr) rfl
        fun latest id sess csr _ _ hr => ?_
    split
    · exact hr.invalidated
    · exact hr
  | invalidateAll =>
    cases hs
    exact h.map invalidate rfl fun _ _ _ _ _ _ hr => hr.invalidated
  | setOutputs outputs =>
    cases hs
    exact ⟨h.delivers, h.ready⟩

theorem fresh_start (outputs : ℕ → Option (CaptureGeometry S)) :
    Fresh content (Remote.start outputs : Remote B S) :=
  ⟨fun _ => trivial, nofun⟩

/-- In every run that keeps updates each client can use all frames that it gets: one that is not
complete covers what differs from the frame before. -/
theorem frames_cover_changes [BEq S] (content : B → Pixel → C)
    (outputs : ℕ → Option (CaptureGeometry S)) (events : List (RemoteEvent B S))
    (final : Remote B S)
    (hok : Meets Remote.step
      (fun remote event => remote.Covered content event ∧ remote.KeepsUpdates event)
      (Remote.start outputs) events)
    (hrun : run Remote.step (Remote.start outputs) events = some final) (c : ℕ) :
    Delivers content none (final.clients c).received := by
  have hf := run_invariant_of_meets fresh_step hok hrun ⟨owned_start outputs, fresh_start outputs⟩
  exact (hf.2.delivers c).of_initial (final.clients c).received_initial

/-! One client and an output of two pixels. -/

def twoPixelOutput : ℕ → Option (CaptureGeometry Unit) := fun _ => some twoPixelGeometry

def exportAll : RemoteEvent (ℕ × ℕ) Unit := .exportFrames (fun _ => some 8) fun _ => true

/-- A client connects and gets its first frame. -/
def firstFrame : List (RemoteEvent (ℕ × ℕ) Unit) :=
  [.accept, .request 0 (some (.startCapture 1)), .drainCommand, .recv 0, .write 0 .done true,
    .publish 1 (0, 0) twoPixelGeometry [] 0, exportAll, .recv 0, .write 0 .done false]

/-- The second pixel changes, and the client gets the frame. -/
def secondFrame (damage : List Rectangle) : List (RemoteEvent (ℕ × ℕ) Unit) :=
  [.publish 1 (0, 1) twoPixelGeometry damage 1, exportAll, .recv 0, .write 0 .done false]

/-- The second pixel changes, and the pixels of the frame cannot be read. Then the first one
changes, and the client gets that frame. -/
def lostFrame : List (RemoteEvent (ℕ × ℕ) Unit) :=
  [.publish 1 (0, 1) twoPixelGeometry [⟨1, 0, 1, 1⟩] 1,
    .exportFrames (fun _ => none) fun _ => true,
    .publish 1 (1, 1) twoPixelGeometry [⟨0, 0, 1, 1⟩] 2, exportAll, .recv 0, .write 0 .done false]

theorem covers_pixels {pre after : ℕ × ℕ}
    (hf : pre.1 = after.1 ∨ Damaged damage (0, 0))
    (hs : pre.2 = after.2 ∨ Damaged damage (1, 0)) :
    CoversChange twoPixels damage pre after := by
  intro p hp
  unfold twoPixels
  split
  · rename_i hz
    exact hf.resolve_right (hz ▸ hp)
  · split
    · rename_i ho
      exact hs.resolve_right (ho ▸ hp)
    · rfl

theorem keepsUpdates_exportAll (remote : Remote (ℕ × ℕ) Unit) :
    remote.KeepsUpdates exportAll := by
  intro sid sess csr _ _ _
  simp [sealedMemfd, maxFrameBytes]

theorem convertible_second : Convertible [⟨1, 0, 1, 1⟩] twoPixelGeometry :=
  convertible_of_forall fun rect hr => by
    obtain rfl := mem_singleton.mp hr
    exact .inl rfl

theorem meets_firstFrame : Meets Remote.step (fun remote ev =>
    remote.Covered twoPixels ev ∧ remote.KeepsUpdates ev) (Remote.start twoPixelOutput)
      firstFrame := by
  refine .cons ⟨trivial, trivial⟩ rfl ?_
  refine .cons ⟨trivial, trivial⟩ rfl ?_
  refine .cons ⟨trivial, trivial⟩ rfl ?_
  refine .cons ⟨trivial, trivial⟩ rfl ?_
  refine .cons ⟨trivial, trivial⟩ rfl ?_
  refine .cons ⟨nofun, convertible_of_forall nofun⟩ rfl ?_
  refine .cons ⟨trivial, keepsUpdates_exportAll _⟩ rfl ?_
  refine .cons ⟨trivial, trivial⟩ rfl ?_
  exact .cons ⟨trivial, trivial⟩ rfl trivial

theorem frames_cover_changes_sample : ∃ final : Remote (ℕ × ℕ) Unit,
    run Remote.step (Remote.start twoPixelOutput) (firstFrame ++ secondFrame [⟨1, 0, 1, 1⟩]) =
      some final ∧ (final.clients 0).received.length = 3 ∧
        Delivers twoPixels none (final.clients 0).received := by
  refine ⟨_, rfl, rfl, frames_cover_changes twoPixels twoPixelOutput
    (firstFrame ++ secondFrame [⟨1, 0, 1, 1⟩]) _ ((meets_firstFrame).append rfl ?_) rfl 0⟩
  refine .cons ⟨?_, convertible_second⟩ rfl ?_
  · rintro _ ⟨⟩
    exact covers_pixels (.inl rfl) (.inr (by decide))
  refine .cons ⟨trivial, keepsUpdates_exportAll _⟩ rfl ?_
  refine .cons ⟨trivial, trivial⟩ rfl ?_
  exact .cons ⟨trivial, trivial⟩ rfl trivial

/-- A frame covers the second pixel when that is another one than before. -/
theorem covers_of_usable {frame : FrameReady Unit} {fst : ℕ}
    (h : Usable twoPixels (some (0, 0)) frame (fst, 1)) (hn : frame.fullRefresh = false)
    (hw : frame.width = 2) (hh : frame.height = 1) :
    ∃ rect ∈ frame.damage, rect.Covers (1, 0) := by
  obtain hf | ⟨_, ⟨⟩, hc⟩ := h
  · rw [hn] at hf
    cases hf
  · refine hc (1, 0) ?_ nofun
    rw [hw, hh]
    exact ⟨by decide, by decide, by decide, by decide⟩

/-- The damage that is published covers the change, and the client gets a frame that it cannot
use. -/
def LosesUpdate (events : List (RemoteEvent (ℕ × ℕ) Unit)) : Prop :=
  ∃ final : Remote (ℕ × ℕ) Unit,
    Meets Remote.step (Remote.Covered twoPixels) (Remote.start twoPixelOutput) events ∧
      run Remote.step (Remote.start twoPixelOutput) events = some final ∧
        ¬ Delivers twoPixels none (final.clients 0).received

/-- A frame whose pixels cannot be read is lost, and so is damage with a negative coordinate. -/
theorem updates_lost : LosesUpdate (firstFrame ++ lostFrame) ∧
    LosesUpdate (firstFrame ++ secondFrame [⟨-1, 0, 3, 1⟩]) := by
  have hf : Meets Remote.step (Remote.Covered twoPixels) (Remote.start twoPixelOutput)
      firstFrame := (meets_firstFrame).mono fun _ _ hok => hok.1
  constructor
  · refine ⟨_, hf.append rfl ?_, rfl, fun hd => ?_⟩
    · refine .cons ?_ rfl ?_
      · rintro _ ⟨⟩
        exact covers_pixels (.inl rfl) (.inr (by decide))
      refine .cons trivial rfl ?_
      refine .cons ?_ rfl ?_
      · rintro _ ⟨⟩
        exact covers_pixels (.inr (by decide)) (.inl rfl)
      refine .cons trivial rfl ?_
      refine .cons trivial rfl ?_
      exact .cons trivial rfl trivial
    · obtain ⟨rect, hr, hc⟩ := covers_of_usable hd.2.1 rfl rfl rfl
      obtain rfl : rect = ⟨0, 0, 1, 1⟩ := mem_singleton.mp hr
      exact absurd hc.2.1 (by decide)
  · refine ⟨_, hf.append rfl ?_, rfl, fun hd => ?_⟩
    · refine .cons ?_ rfl ?_
      · rintro _ ⟨⟩
        exact covers_pixels (.inl rfl) (.inr (by decide))
      refine .cons trivial rfl ?_
      refine .cons trivial rfl ?_
      exact .cons trivial rfl trivial
    · obtain ⟨rect, hr, -⟩ := covers_of_usable hd.2.1 rfl rfl rfl
      cases hr

end FocalDesk.Capture
