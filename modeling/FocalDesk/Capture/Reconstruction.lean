import FocalDesk.Capture.Broker
import FocalDesk.Library.Transition
import Mathlib.Logic.Function.Basic

/-! What a consumer sees of an output, from the frames it gets. -/
namespace FocalDesk.Capture
open Library List Option Function

variable {B S C : Type} {content : B → Pixel → C} {latest published : Option B} {b last : B}
  {frame : CaptureFrame B S} {queue : List (CaptureFrame B S)} {consumer csr : CaptureConsumer B S}
  {damage : List Rectangle}

/-- What a consumer has, and the buffer of the last frame it got. -/
structure View (B C : Type) where
  image : Pixel → Option C
  latest : Option B

def View.blank : View B C := ⟨fun _ => none, none⟩

/-- A full refresh takes the place of the image, another frame that of the damaged pixels. -/
def View.receive (content : B → Pixel → C) (view : View B C) (frame : CaptureFrame B S) :
    View B C where
  image p := if frame.fullRefresh = true ∨ Damaged frame.damage p then some (content frame.buffer p)
    else view.image p
  latest := some frame.buffer

/-- The image is exactly the buffer of the last frame. -/
def View.Exact (content : B → Pixel → C) (view : View B C) : Prop :=
  ∀ b, view.latest = some b → ∀ p, view.image p = some (content b p)

/-- Damage covers all pixels in which two buffers differ. -/
def CoversChange (content : B → Pixel → C) (damage : List Rectangle) (before after : B) : Prop :=
  ∀ p, ¬ Damaged damage p → content before p = content after p

/-- A frame that a consumer with this buffer can use. -/
def Follows (content : B → Pixel → C) (latest : Option B) (frame : CaptureFrame B S) : Prop :=
  frame.fullRefresh = true ∨ ∃ b, latest = some b ∧ CoversChange content frame.damage b frame.buffer

/-- Each frame can be used after the one before. -/
def Chain (content : B → Pixel → C) : Option B → List (CaptureFrame B S) → Prop
  | _, [] => True
  | latest, frame :: queue => Follows content latest frame ∧ Chain content (some frame.buffer) queue

/-- The buffer of the last frame, or what there was before. -/
def lastBuffer (latest : Option B) (queue : List (CaptureFrame B S)) : Option B :=
  (queue.getLast?.map CaptureFrame.buffer).orElse fun _ => latest

/-- A queue that leads from what the consumer has to what was published last. -/
structure Current (content : B → Pixel → C) (latest : Option B) (consumer : CaptureConsumer B S)
    (published : Option B) : Prop where
  limit : 1 ≤ consumer.queueLimit
  chain : Chain content latest consumer.queue
  upToDate : consumer.needsFullRefresh = false → ∃ b last, published = some b ∧
    lastBuffer latest consumer.queue = some last ∧ content last = content b

theorem View.Exact.receive {view : View B C} (h : view.Exact content)
    (hf : Follows content view.latest frame) : (view.receive content frame).Exact content := by
  rintro _ ⟨⟩ p
  by_cases hp : frame.fullRefresh ∨ Damaged frame.damage p
  · exact if_pos hp
  · obtain ⟨hfu, hd⟩ := not_or.mp hp
    obtain ⟨b, hl, hc⟩ := hf.resolve_left hfu
    refine (if_neg hp).trans ?_
    rw [h b hl p, hc p hd]

theorem exact_blank : (View.blank : View B C).Exact content := by
  intro b hb
  cases hb

theorem follows_full (latest : Option B) (frame : CaptureFrame B S) :
    Follows content latest frame.forceFullRefresh := .inl rfl

theorem lastBuffer_append (latest : Option B) (queue : List (CaptureFrame B S))
    (frame : CaptureFrame B S) : lastBuffer latest (queue ++ [frame]) = some frame.buffer := by
  simp [lastBuffer]

theorem lastBuffer_cons (latest : Option B) (fst : CaptureFrame B S)
    (queue : List (CaptureFrame B S)) :
    lastBuffer latest (fst :: queue) = lastBuffer (some fst.buffer) queue := by
  cases queue with
  | nil => rfl
  | cons snd queue =>
    have hl : (snd :: queue).getLast? = some ((snd :: queue).getLast nofun) :=
      getLast?_eq_some_getLast _
    simp [lastBuffer, getLast?_cons_cons, hl]

theorem chain_append : Chain content latest (queue ++ [frame]) ↔
    Chain content latest queue ∧ Follows content (lastBuffer latest queue) frame := by
  induction queue generalizing latest with
  | nil => simp [Chain, lastBuffer]
  | cons fst queue ih =>
    simp only [cons_append, Chain, ih, lastBuffer_cons, and_assoc]

namespace Current

/-- The first of the queued frames was taken. -/
theorem poll (h : Current content latest csr published) (hq : csr.queue = frame :: queue)
    :
    Follows content latest frame ∧
      Current content (some frame.buffer) { csr with queue } published := by
  obtain ⟨hf, hc⟩ : Chain content latest (frame :: queue) := hq ▸ h.chain
  refine ⟨hf, h.limit, hc, ?_⟩
  intro hn
  obtain ⟨b, last, hp, hl, hco⟩ := h.upToDate hn
  rw [hq, lastBuffer_cons] at hl
  exact ⟨b, last, hp, hl, hco⟩

theorem registered {queueDepth : ℕ} (hd : 1 ≤ queueDepth) (outputId : ℕ) :
    Current content latest (.register outputId queueDepth : CaptureConsumer B S) published :=
  ⟨hd, trivial, nofun⟩

theorem cleared (h : Current content latest csr published) (latest' : Option B) :
    Current content latest' csr.requestFullRefresh published :=
  ⟨h.limit, trivial, nofun⟩

theorem invalidated (h : Current content latest csr published) (latest' : Option B) :
    Current content latest' csr.invalidate published :=
  ⟨h.limit, trivial, nofun⟩

/-- The newest of the queued frames was taken. -/
theorem takeLatest (h : Current content latest csr published)
    (hl : csr.queue.getLast? = some frame) :
    Follows content latest
        (if 1 < csr.queue.length then frame.forceFullRefresh else frame) ∧
      Current content (some frame.buffer) { csr with queue := [] } published := by
  constructor
  · split
    · exact follows_full latest frame
    · rename_i hle
      rcases hq : csr.queue with _ | ⟨fst, _ | ⟨snd, rest⟩⟩
      · rw [hq] at hl
        cases hl
      · rw [hq] at hl
        cases hl
        exact (h.poll hq).1
      · rw [hq] at hle
        simp at hle
  · refine ⟨h.limit, trivial, ?_⟩
    intro hn
    obtain ⟨b, last, hp, hb, hc⟩ := h.upToDate hn
    refine ⟨b, last, hp, ?_, hc⟩
    simpa [lastBuffer, hl] using hb

variable [BEq S]

/-- A frame is published to the consumer, and what is left of a full queue needs nothing of what
was dropped. -/
theorem publish (h : Current content latest csr published)
    (hc : ∀ b, published = some b → CoversChange content frame.damage b frame.buffer)
    (hb : csr.skips frame.geometry frame.damage = false → csr.queueFull →
      ∀ left ∈ csr.queue.tail.head?, left.fullRefresh) :
    Current content latest (csr.publish frame) (some frame.buffer) := by
  unfold CaptureConsumer.publish
  cases hs : csr.skips frame.geometry frame.damage with
  | true =>
    rw [if_pos rfl]
    refine ⟨h.limit, h.chain, ?_⟩
    intro hn
    obtain ⟨b, last, hpu, hl, hco⟩ := h.upToDate hn
    refine ⟨frame.buffer, last, rfl, hl, hco.trans ?_⟩
    -- Without damage the buffers are the same.
    funext p
    apply hc b hpu
    have hno : frame.damage = [] := by
      simp only [CaptureConsumer.skips, Bool.and_eq_true, decide_eq_true_eq] at hs
      exact hs.1.1
    rintro ⟨rect, hr, -⟩
    rw [hno] at hr
    cases hr
  | false =>
    rw [if_neg Bool.false_ne_true]
    dsimp only
    cases hf : csr.queueFull with
    | true =>
      rw [Bool.or_true, if_pos rfl, if_pos rfl]
      have ht : Chain content latest csr.queue.tail := by
        have hle := hb hs hf
        have hch := h.chain
        rcases hq : csr.queue with _ | ⟨fst, _ | ⟨snd, rest⟩⟩
        · trivial
        · trivial
        · rw [hq] at hch hle
          exact ⟨.inl (hle snd rfl), hch.2.2⟩
      refine ⟨h.limit, (chain_append).mpr ⟨ht, follows_full _ frame⟩, ?_⟩
      exact fun _ => ⟨frame.buffer, frame.buffer, rfl, lastBuffer_append _ _ _, rfl⟩
    | false =>
      rw [Bool.or_false, if_neg Bool.false_ne_true]
      refine ⟨h.limit, (chain_append).mpr ⟨h.chain, ?_⟩, ?_⟩
      · split
        · exact follows_full _ frame
        · rename_i hcn
          rw [Bool.or_eq_true, not_or] at hcn
          obtain ⟨b, last, hpu, hl, hco⟩ := h.upToDate (Bool.eq_false_iff.mpr hcn.1)
          refine .inr ⟨last, hl, ?_⟩
          intro p hp
          rw [hco]
          exact hc b hpu p hp
      · intro _
        refine ⟨frame.buffer, frame.buffer, rfl, ?_, rfl⟩
        rw [lastBuffer_append]
        split <;> rfl

end Current

/-! Runs. -/

/-- A broker with what its consumers have and what was published last of each output. -/
structure Capturing (B S C : Type) where
  broker : OutputCaptureBroker B S
  views : ℕ → View B C
  published : ℕ → Option B

inductive CaptureEvent (B S : Type) where
  | register (outputId queueDepth : ℕ)
  | remove (consumerId : ℕ)
  | publish (outputId : ℕ) (buffer : B) (geometry : CaptureGeometry S) (damage : List Rectangle)
    (capturedAt : ℕ)
  | pollFrame (consumerId : ℕ)
  | takeLatestFrame (consumerId : ℕ)
  | requestFullRefresh (consumerId : ℕ)
  | invalidateOutput (outputId : ℕ)
  | invalidateAll

namespace Capturing

def start : Capturing B S C := ⟨.empty, fun _ => .blank, fun _ => none⟩

/-- A consumer applies the frame it got. -/
def deliver (content : B → Pixel → C) (run : Capturing B S C) (consumerId : ℕ)
    (result : OutputCaptureBroker B S × Option (CaptureFrame B S)) : Capturing B S C :=
  { run with
    broker := result.1
    views := match result.2 with
      | none => run.views
      | some frame =>
        Function.update run.views consumerId ((run.views consumerId).receive content frame) }

def register (run : Capturing B S C) (outputId queueDepth : ℕ) : Capturing B S C :=
  match run.broker.register outputId queueDepth with
  | .error _ => run
  | .ok (broker, consumerId) =>
    { run with broker, views := Function.update run.views consumerId .blank }

def requestFullRefresh (run : Capturing B S C) (consumerId : ℕ) : Capturing B S C :=
  match run.broker.requestFullRefresh consumerId with
  | .error _ => run
  | .ok (broker, _) => { run with broker }

def step [BEq S] (content : B → Pixel → C) (run : Capturing B S C) :
    CaptureEvent B S → Option (Capturing B S C)
  | .register outputId queueDepth => some (run.register outputId queueDepth)
  | .remove consumerId => some { run with broker := run.broker.remove consumerId }
  | .publish outputId buffer geometry damage capturedAt => some { run with
      broker := (run.broker.publish outputId buffer geometry damage capturedAt).1
      published := Function.update run.published outputId (some buffer) }
  | .pollFrame consumerId =>
    some (run.deliver content consumerId (run.broker.pollFrame consumerId))
  | .takeLatestFrame consumerId =>
    some (run.deliver content consumerId (run.broker.takeLatestFrame consumerId))
  | .requestFullRefresh consumerId => some (run.requestFullRefresh consumerId)
  | .invalidateOutput outputId =>
    some { run with broker := run.broker.invalidateOutput outputId }
  | .invalidateAll => some { run with broker := run.broker.invalidateAll }

/-- The damage covers the difference to the buffer published before. -/
def Covered (content : B → Pixel → C) (run : Capturing B S C) : CaptureEvent B S → Prop
  | .publish outputId buffer _ damage _ =>
    ∀ b, run.published outputId = some b → CoversChange content damage b buffer
  | _ => True

/-- No frame is dropped from the front of a full queue that the next one in the queue needs. -/
def KeepsBase [BEq S] (run : Capturing B S C) : CaptureEvent B S → Prop
  | .publish outputId _ geometry damage _ =>
    ∀ consumerId consumer, getKey consumerId run.broker.consumers = some consumer →
      consumer.outputId = outputId → consumer.skips geometry damage = false →
        consumer.queueFull = true → ∀ left ∈ consumer.queue.tail.head?, left.fullRefresh = true
  | _ => True

/-- What every consumer has is exact, and its queue leads to what was published last. -/
def Sound (content : B → Pixel → C) (run : Capturing B S C) : Prop :=
  ∀ consumerId, (run.views consumerId).Exact content ∧
    ∀ consumer, getKey consumerId run.broker.consumers = some consumer →
      Current content (run.views consumerId).latest consumer (run.published consumer.outputId)

variable {run run' : Capturing B S C} {ev : CaptureEvent B S}

theorem sound_start : (start : Capturing B S C).Sound content :=
  fun _ => ⟨exact_blank, nofun⟩

/-- One consumer takes a frame or nothing. -/
theorem Sound.deliver (h : run.Sound content) {cid : ℕ}
    (hco : getKey cid run.broker.consumers = some csr)
    {consumer' : CaptureConsumer B S} {frame : Option (CaptureFrame B S)}
    (ho : consumer'.outputId = csr.outputId)
    (hno : frame = none → consumer'.queue = csr.queue ∧
      consumer'.needsFullRefresh = csr.needsFullRefresh ∧
        consumer'.queueLimit = csr.queueLimit)
    (hso : ∀ tk, frame = some tk →
      Follows content (run.views cid).latest tk ∧
        Current content (some tk.buffer) consumer' (run.published csr.outputId)) :
    (run.deliver content cid (run.broker.setConsumer cid consumer', frame)).Sound
      content := by
  intro other
  obtain ⟨he, hc⟩ := h other
  rcases frame with _ | tk
  · refine ⟨he, ?_⟩
    intro found hf
    by_cases hs : other = cid
    · subst hs
      obtain rfl : consumer' = found := some.inj (getKey_putKey_self.symm.trans hf)
      obtain ⟨hq, hn, hli⟩ := hno rfl
      obtain ⟨hl, hch, hd⟩ := hc csr hco
      rw [ho]
      exact ⟨hli ▸ hl, hq ▸ hch, by rw [hn, hq]; exact hd⟩
    · exact hc found ((getKey_putKey_of_ne hs).symm.trans hf)
  · obtain ⟨hfo, ha⟩ := hso tk rfl
    by_cases hs : other = cid
    · subst hs
      simp only [Capturing.deliver, update_self]
      refine ⟨he.receive hfo, ?_⟩
      intro found hf
      obtain rfl : consumer' = found := some.inj (getKey_putKey_self.symm.trans hf)
      rw [ho]
      exact ha
    · simp only [Capturing.deliver, update_of_ne hs]
      exact ⟨he, fun found hf =>
        hc found ((getKey_putKey_of_ne hs).symm.trans hf)⟩

/-- All consumers change, and none takes a frame. -/
theorem Sound.map (h : run.Sound content) (f : CaptureConsumer B S → CaptureConsumer B S)
    (serials : List (ℕ × ℕ)) (published : ℕ → Option B)
    (hf : ∀ latest cid csr,
      getKey cid run.broker.consumers = some csr →
      Current content latest csr (run.published csr.outputId) →
        Current content latest (f csr) (published (f csr).outputId)) :
    Sound content { run with
      broker := { run.broker.mapConsumers f with outputSerials := serials }, published } := by
  intro cid
  obtain ⟨he, hcu⟩ := h cid
  refine ⟨he, ?_⟩
  intro found hfo
  have hm : getKey cid (run.broker.consumers.map fun e => (e.1, f e.2)) = some found := hfo
  rw [getKey_map] at hm
  obtain ⟨csr, hc, rfl⟩ := map_eq_some_iff.mp hm
  exact hf _ cid csr hc (hcu csr hc)

theorem Sound.register (h : run.Sound content) (outputId queueDepth : ℕ) :
    (run.register outputId queueDepth).Sound content := by
  unfold Capturing.register OutputCaptureBroker.register
  by_cases hd : 1 ≤ queueDepth ∧ queueDepth ≤ maxCaptureQueueDepth
  · rw [if_pos hd]
    intro cid
    by_cases hs : cid = run.broker.nextConsumerId
    · subst hs
      simp only [update_self]
      refine ⟨exact_blank, ?_⟩
      intro found hf
      obtain rfl := some.inj (getKey_putKey_self.symm.trans hf)
      exact Current.registered hd.1 outputId
    · simp only [update_of_ne hs]
      exact ⟨(h cid).1, fun found hf =>
        (h cid).2 found ((getKey_putKey_of_ne hs).symm.trans hf)⟩
  · rw [if_neg hd]
    exact h

theorem Sound.remove (h : run.Sound content) (cid : ℕ) :
    Sound content { run with broker := run.broker.remove cid } := by
  intro other
  refine ⟨(h other).1, ?_⟩
  intro found hf
  by_cases hs : other = cid
  · subst hs
    cases getKey_removeKey_self.symm.trans hf
  · exact (h other).2 found ((getKey_removeKey_of_ne hs).symm.trans hf)

theorem Sound.pollFrame (h : run.Sound content) (cid : ℕ) :
    (run.deliver content cid (run.broker.pollFrame cid)).Sound content := by
  unfold OutputCaptureBroker.pollFrame
  rcases hc : getKey cid run.broker.consumers with _ | csr
  · exact h
  · refine h.deliver hc rfl ?_ ?_
    · intro hn
      rw [head?_eq_none_iff] at hn
      exact ⟨by rw [hn]; rfl, rfl, rfl⟩
    · intro tk ht
      obtain ⟨rest, hq⟩ := head?_eq_some_iff.mp ht
      rw [hq]
      exact ((h cid).2 csr hc).poll hq

theorem Sound.takeLatestFrame (h : run.Sound content) (cid : ℕ) :
    (run.deliver content cid (run.broker.takeLatestFrame cid)).Sound content := by
  unfold OutputCaptureBroker.takeLatestFrame
  rcases hc : getKey cid run.broker.consumers with _ | csr
  · exact h
  · refine h.deliver hc rfl ?_ ?_
    · intro hn
      rw [map_eq_none_iff, getLast?_eq_none_iff] at hn
      exact ⟨hn.symm, rfl, rfl⟩
    · intro tk ht
      obtain ⟨frame, hl, rfl⟩ := map_eq_some_iff.mp ht
      have hb : (if 1 < csr.queue.length then frame.forceFullRefresh else frame).buffer =
          frame.buffer := by
        split <;> rfl
      rw [hb]
      exact ((h cid).2 csr hc).takeLatest hl

theorem Sound.requestFullRefresh (h : run.Sound content) (cid : ℕ) :
    (run.requestFullRefresh cid).Sound content := by
  unfold Capturing.requestFullRefresh OutputCaptureBroker.requestFullRefresh
  rcases hc : getKey cid run.broker.consumers with _ | csr
  · exact h
  · intro other
    refine ⟨(h other).1, ?_⟩
    intro found hf
    by_cases hs : other = cid
    · subst hs
      obtain rfl := some.inj (getKey_putKey_self.symm.trans hf)
      exact ((h other).2 csr hc).cleared _
    · exact (h other).2 found ((getKey_putKey_of_ne hs).symm.trans hf)

/-- A consumer that is not publishable skips the frame. -/
theorem skips_of_not_publishable [BEq S] {broker : OutputCaptureBroker B S} {outputId cid : ℕ}
    {geometry : CaptureGeometry S}
    (hn : broker.hasPublishableConsumer outputId geometry damage = false)
    (hc : getKey cid broker.consumers = some csr)
    (ho : csr.outputId = outputId) : csr.skips geometry damage := by
  have ha := any_eq_false.mp hn _ (mem_of_lookup hc)
  simpa [ho] using ha

theorem Sound.publish [BEq S] (h : run.Sound content) (outputId : ℕ) (buffer : B)
    (geometry : CaptureGeometry S) (damage : List Rectangle) (capturedAt : ℕ)
    (hco : run.Covered content (.publish outputId buffer geometry damage capturedAt))
    (hb : run.KeepsBase (.publish outputId buffer geometry damage capturedAt)) :
    Sound content { run with
      broker := (run.broker.publish outputId buffer geometry damage capturedAt).1
      published := update run.published outputId (some buffer) } := by
  have hf : ∀ (serial : ℕ) latest cid csr,
      getKey cid run.broker.consumers = some csr →
      Current content latest csr (run.published csr.outputId) →
      csr.outputId = outputId →
        Current content latest (csr.publish
          { outputId, serial, capturedAt, geometry, buffer, damage, fullRefresh := false })
          (some buffer) := by
    intro serial latest cid csr hc hcu ho
    apply hcu.publish
    · rw [ho]
      exact hco
    · exact hb cid csr hc ho
  unfold OutputCaptureBroker.publish
  cases ha : run.broker.hasPublishableConsumer outputId geometry damage with
  | true =>
    rw [if_pos rfl]
    apply h.map
    intro latest cid csr hc hcu
    by_cases ho : csr.outputId = outputId
    · rw [if_pos ho, CaptureConsumer.outputId_publish, ho, update_self]
      exact hf _ latest cid csr hc hcu ho
    · simp only [if_neg ho, update_of_ne ho]
      exact hcu
  | false =>
    rw [if_neg Bool.false_ne_true]
    intro cid
    refine ⟨(h cid).1, ?_⟩
    intro csr hc
    have hcu := (h cid).2 csr hc
    by_cases ho : csr.outputId = outputId
    · have hs := hf 0 _ cid csr hc hcu ho
      have hsk := skips_of_not_publishable ha hc ho
      rw [CaptureConsumer.publish, if_pos hsk] at hs
      simp only [ho, update_self]
      exact hs
    · simp only [update_of_ne ho]
      exact hcu

theorem step_sound [BEq S] (hs : run.step content ev = some run')
    (hok : run.Covered content ev ∧ run.KeepsBase ev) (h : run.Sound content) :
    run'.Sound content := by
  cases ev with
  | register outputId queueDepth =>
    cases hs
    exact h.register outputId queueDepth
  | remove cid =>
    cases hs
    exact h.remove cid
  | publish outputId buffer geometry damage capturedAt =>
    cases hs
    exact h.publish outputId buffer geometry damage capturedAt hok.1 hok.2
  | pollFrame cid =>
    cases hs
    exact h.pollFrame cid
  | takeLatestFrame cid =>
    cases hs
    exact h.takeLatestFrame cid
  | requestFullRefresh cid =>
    cases hs
    exact h.requestFullRefresh cid
  | invalidateOutput outputId =>
    cases hs
    apply h.map
    intro latest cid csr _ hc
    split
    · exact hc.invalidated latest
    · exact hc
  | invalidateAll =>
    cases hs
    apply h.map
    exact fun latest _ _ _ hc => hc.invalidated latest

end Capturing

open Capturing

/-- In every run that drops no base of a queued frame, each consumer has exactly the buffer of the
last frame it got. -/
theorem consumer_reconstructs [BEq S] (content : B → Pixel → C) (events : List (CaptureEvent B S))
    (final : Capturing B S C)
    (hok : Meets (step content) (fun run event => run.Covered content event ∧ run.KeepsBase event)
      start events)
    (hrun : run (step content) start events = some final) (consumerId : ℕ) :
    (final.views consumerId).Exact content :=
  (run_invariant_of_meets Capturing.step_sound hok hrun Capturing.sound_start consumerId).1

/-! An output of two pixels. -/

def twoPixels (buffer : ℕ × ℕ) (p : Pixel) : ℕ :=
  if p = (0, 0) then buffer.1 else if p = (1, 0) then buffer.2 else 0

def twoPixelGeometry : CaptureGeometry Unit := ⟨2, 1, (), .normal⟩

/-- The second pixel changes. -/
def publishSecond (buffer : ℕ × ℕ) : CaptureEvent (ℕ × ℕ) Unit :=
  .publish 1 buffer twoPixelGeometry [⟨1, 0, 1, 1⟩] 0

theorem covers_second (a b c : ℕ) : CoversChange twoPixels [⟨1, 0, 1, 1⟩] (a, b) (a, c) := by
  intro p hp
  have hne : p ≠ (1, 0) := by
    rintro rfl
    exact hp ⟨_, mem_singleton_self _, by decide⟩
  simp [twoPixels, hne]

theorem consumer_reconstructs_sample :
    ∃ final : Capturing (ℕ × ℕ) Unit ℕ, run (step twoPixels) start
        [.register 1 2, publishSecond (1, 0), publishSecond (1, 1), .takeLatestFrame 1] =
          some final ∧ (final.views 1).latest = some (1, 1) ∧ (final.views 1).Exact twoPixels := by
  refine ⟨_, rfl, rfl, consumer_reconstructs twoPixels [.register 1 2, publishSecond (1, 0),
    publishSecond (1, 1), .takeLatestFrame 1] _ ?_ rfl 1⟩
  refine .cons ⟨trivial, trivial⟩ rfl ?_
  refine .cons ⟨nofun, ?_⟩ rfl ?_
  · intro cid consumer hc
    cases mem_singleton.mp (mem_of_lookup hc)
    exact fun _ _ hf => nomatch hf
  refine .cons ⟨?_, ?_⟩ rfl ?_
  · rintro _ ⟨⟩
    exact covers_second 1 0 1
  · intro cid consumer hc
    cases mem_singleton.mp (mem_of_lookup hc)
    exact fun _ _ hf => nomatch hf
  exact .cons ⟨trivial, trivial⟩ rfl trivial

/-- The first frame is dropped from a full queue, and the second one needs it. -/
theorem base_dropped :
    ¬ ∀ (content : ℕ × ℕ → Pixel → ℕ) (events : List (CaptureEvent (ℕ × ℕ) Unit))
      (final : Capturing (ℕ × ℕ) Unit ℕ),
        Meets (step content) (Capturing.Covered content) start events →
          run (step content) start events = some final →
            ∀ consumerId, (final.views consumerId).Exact content := by
  intro h
  have hc : Meets (step twoPixels) (Capturing.Covered twoPixels)
      (start : Capturing (ℕ × ℕ) Unit ℕ) [.register 1 2, publishSecond (1, 0),
        publishSecond (1, 1), publishSecond (1, 2), .pollFrame 1] := by
    refine .cons trivial rfl ?_
    refine .cons nofun rfl ?_
    refine .cons ?_ rfl ?_
    · rintro _ ⟨⟩
      exact covers_second 1 0 1
    refine .cons ?_ rfl ?_
    · rintro _ ⟨⟩
      exact covers_second 1 1 2
    exact .cons trivial rfl trivial
  have he := h twoPixels _ _ hc rfl 1 (1, 1) rfl (0, 0)
  cases he

end FocalDesk.Capture
