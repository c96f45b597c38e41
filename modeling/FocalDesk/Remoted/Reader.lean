import FocalDesk.Capture.Compact
import FocalDesk.Capture.Damage
import FocalDesk.Remoted.Display

/-! Whether the frames that the compositor sends are accepted and rendered. -/
namespace FocalDesk.Remoted
open Library Capture List Function Except

def maxDamageRects : ℕ := 64

def checkedSize (width height : ℕ) : Except String DesktopSize := do
  bailIf (2 ^ 16 ≤ width) "output width exceeds RDP limit"
  bailIf (2 ^ 16 ≤ height) "output height exceeds RDP limit"
  bailIf (width = 0 ∨ height = 0) "output has zero dimensions"
  .ok ⟨width, height⟩

/-- The first and the third byte of each pixel change places. -/
def swapChannels : List UInt8 → List UInt8
  | r :: g :: b :: a :: rest => b :: g :: r :: a :: swapChannels rest
  | rest => rest

variable {B S : Type}

/-- A frame with the file that comes after it. -/
def readCaptureFrame (event : FrameReady S) (file : List UInt8) (serial : ℕ) :
    Except String RemoteFrame := do
  bailIf (2 ^ 16 ≤ event.width) "frame width exceeds RDP limit"
  bailIf (2 ^ 16 ≤ event.height) "frame height exceeds RDP limit"
  let _ ← checkedSize event.width event.height
  bailIf (2 ^ 64 ≤ event.stride * event.height) "frame size overflow"
  bailIf (event.len ≠ event.stride * event.height ∨ maxFrameBytes < event.len)
    "invalid shared frame length"
  bailIf (event.damage = [] ∨ maxDamageRects < event.damage.length)
    "invalid remote damage rectangle count"
  bailIf (file.length < event.len) "failed to fill whole buffer"
  bailIf (event.stride = 0) "zero frame stride"
  .ok
    { serial
      width := event.width
      height := event.height
      stride := event.stride
      pixels := swapChannels (file.take event.len)
      damage := event.damage
      fullRefresh := event.fullRefresh }

/-- The reader accepts a frame, and its bitmaps can be made whether or not all of it is wanted. A
full refresh always wants all of it. -/
def Rendered (event : FrameReady S) : Prop :=
  ∀ file serial, file.length = event.len → ∃ frame, readCaptureFrame event file serial = .ok frame ∧
    ∀ forceFull, (frame.fullRefresh = true → forceFull = true) →
      ∃ bitmaps, bitmapUpdates frame forceFull = .ok bitmaps

/-- The size is accepted, and the buffer has four bytes for each pixel and is not too large. -/
structure Sized (event : FrameReady S) : Prop where
  size : checkedSize event.width event.height = .ok ⟨event.width, event.height⟩
  len : event.len = event.width * 4 * event.height
  limit : event.len ≤ maxFrameBytes

/-- The frame of a message is rendered when its size is one that can be. -/
def Agrees (message : RemoteOutbound B S) : Prop :=
  ∀ event, message.event = .frameReady event → Sized event → Rendered event

/-- The rectangles that are sent for a damage list are not too many, and parts of the output. -/
structure Fits (damage : List Rectangle) (width height : ℤ) : Prop where
  some : damage.filterMap DamageRect.ofRectangle ≠ []
  few : (damage.filterMap DamageRect.ofRectangle).length ≤ maxDamageRects
  inside : ∀ rect ∈ damage.filterMap DamageRect.ofRectangle, 0 < rect.width ∧ 0 < rect.height ∧
    rect.x + rect.width ≤ width.toNat ∧ rect.y + rect.height ≤ height.toNat

theorem length_swapChannels (bytes : List UInt8) :
    (swapChannels bytes).length = bytes.length := by
  fun_induction swapChannels bytes with
  | case1 r g b a rest ih => simp [ih]
  | case2 rest hr => rfl

theorem checkedSize_eq_ok {width h' : ℕ} {size : DesktopSize} :
    checkedSize width h' = .ok size ↔
      0 < width ∧ width < 2 ^ 16 ∧ 0 < h' ∧ h' < 2 ^ 16 ∧ size = ⟨width, h'⟩ := by
  simp only [checkedSize, bind_eq_ok, bailIf_eq_ok, exists_const, ok.injEq]
  constructor
  · rintro ⟨hw, hh, hz, rfl⟩
    exact ⟨by omega, by omega, by omega, by omega, rfl⟩
  · rintro ⟨hw, hw', hh, hh', rfl⟩
    exact ⟨by omega, by omega, by omega, rfl⟩

/-! One frame. -/

theorem regionRows_ok {frame : RemoteFrame} {x rowBytes y count : ℕ}
    (hrw : x * 4 + rowBytes ≤ frame.stride)
    (hro : (y + count) * frame.stride ≤ frame.pixels.length) :
    ∃ data, regionRows frame x rowBytes y count = .ok data := by
  induction count generalizing y with
  | zero => exact ⟨[], rfl⟩
  | succ count ih =>
    have hn : (y + 1 + count) * frame.stride ≤ frame.pixels.length := by
      rwa [Nat.add_right_comm, Nat.add_assoc y]
    obtain ⟨rest, hr⟩ := ih hn
    have he : (y + 1) * frame.stride ≤ (y + (count + 1)) * frame.stride :=
      Nat.mul_le_mul_right _ (by omega)
    rw [Nat.add_mul, Nat.one_mul] at he
    have hl : ¬ frame.pixels.length < y * frame.stride + x * 4 + rowBytes := by omega
    simp only [regionRows, bind_eq_ok, bailIf_eq_ok, exists_const, ok.injEq]
    exact ⟨_, hl, rest, hr, rfl⟩

/-- A region of a frame with all its rows is made exactly if it is a part of the frame. -/
theorem bitmapRegion_ok_iff {frame : RemoteFrame} {dmg : DamageRect}
    (hs : frame.stride = frame.width * 4)
    (hp : frame.pixels.length = frame.stride * frame.height)
    (hw : frame.width < 2 ^ 16) (hh : frame.height < 2 ^ 16) :
    (∃ bitmap, bitmapRegion frame dmg = .ok bitmap) ↔ 0 < dmg.width ∧ 0 < dmg.height ∧
      dmg.x + dmg.width ≤ frame.width ∧ dmg.y + dmg.height ≤ frame.height := by
  simp only [bitmapRegion, bind_eq_ok, bailIf_eq_ok, exists_const, ok.injEq]
  constructor
  · rintro ⟨bitmap, -, -, hv, -⟩
    omega
  · rintro ⟨hwi, hhi, hri, hb⟩
    have hr : (dmg.y + dmg.height) * frame.stride ≤ frame.pixels.length := by
      rw [hp, Nat.mul_comm frame.stride]
      exact Nat.mul_le_mul_right _ hb
    have hro : dmg.x * 4 + dmg.width * 4 ≤ frame.stride := by omega
    obtain ⟨data, hd⟩ := regionRows_ok hro hr
    exact ⟨_, by omega, by omega, by omega, data, hd, rfl⟩

/-- What is asked of the rectangles of a frame. -/
def Acceptable (event : FrameReady S) : Prop :=
  event.damage ≠ [] ∧ event.damage.length ≤ maxDamageRects ∧
    (event.fullRefresh = false → ∀ rect ∈ event.damage, 0 < rect.width ∧ 0 < rect.height ∧
      rect.x + rect.width ≤ event.width ∧ rect.y + rect.height ≤ event.height)

variable {event : FrameReady S}

theorem readCaptureFrame_eq_ok (hs : Sized event) (hst : event.stride = event.width * 4)
    {file : List UInt8} (hf : file.length = event.len) {serial : ℕ} {frame : RemoteFrame} :
    readCaptureFrame event file serial = .ok frame ↔
      (event.damage ≠ [] ∧ event.damage.length ≤ maxDamageRects) ∧
        frame = ⟨serial, event.width, event.height, event.stride,
          swapChannels (file.take event.len), event.damage, event.fullRefresh⟩ := by
  obtain ⟨hw, hw', hh, hh', -⟩ := (checkedSize_eq_ok).mp hs.size
  have hl : event.len = event.stride * event.height := by rw [hst, hs.len]
  have hli := hs.limit
  have hsm : maxFrameBytes < 2 ^ 64 := by decide
  simp only [readCaptureFrame, bind_eq_ok, bailIf_eq_ok, exists_const, ok.injEq]
  constructor
  · rintro ⟨-, -, size, -, -, -, hd, -, -, rfl⟩
    rw [not_or, Nat.not_lt] at hd
    exact ⟨hd, rfl⟩
  · rintro ⟨⟨hso, hfe⟩, rfl⟩
    refine ⟨by omega, by omega, _, hs.size, by omega, ?_, ?_, by omega, by omega, rfl⟩
    · exact not_or.mpr ⟨not_not.mpr hl, by omega⟩
    · exact not_or.mpr ⟨hso, by omega⟩

/-- A frame of a size that can be rendered is rendered exactly if its rectangles are accepted. -/
theorem rendered_iff (hsi : Sized event) (hs : event.stride = event.width * 4)
    : Rendered event ↔ Acceptable event := by
  obtain ⟨hw, hw', hh, hh', -⟩ := (checkedSize_eq_ok).mp hsi.size
  have hr : ∀ serial (file : List UInt8), file.length = event.len → ∀ rect,
      (∃ bitmap, bitmapRegion ⟨serial, event.width, event.height, event.stride,
        swapChannels (file.take event.len), event.damage, event.fullRefresh⟩ rect = .ok bitmap) ↔
          0 < rect.width ∧ 0 < rect.height ∧ rect.x + rect.width ≤ event.width ∧
            rect.y + rect.height ≤ event.height := by
    intro serial file hf rect
    refine bitmapRegion_ok_iff hs ?_ hw' hh'
    dsimp only
    rw [length_swapChannels, length_take, hf, Nat.min_self, hs, hsi.len]
  constructor
  · intro h
    obtain ⟨frame, hfr, hb⟩ := h (replicate event.len 0) 0 length_replicate
    obtain ⟨⟨hso, hfe⟩, rfl⟩ := (readCaptureFrame_eq_ok hsi hs length_replicate).mp hfr
    refine ⟨hso, hfe, fun hp rect hre => ?_⟩
    obtain ⟨bitmaps, hm⟩ := hb false fun hfu => absurd hfu (by simp [hp])
    exact (hr 0 _ length_replicate rect).mp (exists_mapM_eq_ok.mp ⟨_, hm⟩ rect hre)
  · rintro ⟨hso, hfe, hi⟩ file serial hf
    refine ⟨_, (readCaptureFrame_eq_ok hsi hs hf).mpr ⟨⟨hso, hfe⟩, rfl⟩, fun forceFull hfo => ?_⟩
    cases forceFull with
    | true =>
      simp only [bitmapUpdates, if_true, bind_eq_ok, bailIf_eq_ok, exists_const, ok.injEq]
      exact ⟨_, Nat.ne_of_gt hw, Nat.ne_of_gt hh, rfl⟩
    | false =>
      have hp : event.fullRefresh = false := by
        by_contra hfu
        exact absurd (hfo (Bool.eq_true_of_not_eq_false hfu)) Bool.false_ne_true
      exact exists_mapM_eq_ok.mpr fun rect hre =>
        (hr serial file hf rect).mpr (hi hp rect hre)

/-! The frames of the broker. -/

/-- A frame of the whole output, or one with damage that fits. -/
def Renders (frame : CaptureFrame B S) : Prop :=
  (frame.fullRefresh = true ∧ frame.damage = [⟨0, 0, frame.geometry.width, frame.geometry.height⟩])
    ∨ Fits frame.damage frame.geometry.width frame.geometry.height

theorem renders_full (frame : CaptureFrame B S) : Renders frame.forceFullRefresh :=
  .inl ⟨rfl, rfl⟩

variable {frame : CaptureFrame B S}

theorem Renders.agrees (h : Renders frame) (sessionId len : ℕ) :
    Agrees (frameMessage sessionId len frame) := by
  rintro event he hs
  cases he
  obtain ⟨hw, hw', hh, hh', -⟩ := (checkedSize_eq_ok).mp hs.size
  dsimp only at hw hw' hh hh'
  refine (rendered_iff hs (Nat.min_eq_left (by omega))).mpr ?_
  obtain ⟨hf, hd⟩ | hfits := h
  · have hse : frame.damage.filterMap DamageRect.ofRectangle =
        [⟨0, 0, frame.geometry.width.toNat, frame.geometry.height.toNat⟩] := by
      have hn : 0 ≤ frame.geometry.width ∧ 0 ≤ frame.geometry.height := by omega
      simp [hd, DamageRect.ofRectangle, hn]
    refine ⟨?_, ?_, fun hp => ?_⟩
    · simp [hse]
    · simp [hse, maxDamageRects]
    · rw [hf] at hp
      cases hp
  · exact ⟨hfits.some, hfits.few, fun _ => hfits.inside⟩

/-- The damage that the renderer publishes with a frame. -/
inductive Prepared (overlaps : Rectangle → Rectangle → Bool)
    (intersection : Rectangle → Rectangle → Option Rectangle) (width height : ℤ) :
    List Rectangle → Prop where
  | whole : Prepared overlaps intersection width height [⟨0, 0, width, height⟩]
  | compacted (pending : List Rectangle) : Prepared overlaps intersection width height
      (compactDamage overlaps intersection pending width height)

variable {overlaps : Rectangle → Rectangle → Bool}
  {intersection : Rectangle → Rectangle → Option Rectangle}

/-- What the renderer has compacted fits, unless nothing is left. -/
theorem fits_compactDamage (hcl : Clips intersection) {width h' : ℤ} (hwd : 0 ≤ width)
    (hhe : 0 ≤ h') (dmg : List Rectangle) :
    compactDamage overlaps intersection dmg width h' = [] ∨
      Fits (compactDamage overlaps intersection dmg width h') width h' := by
  obtain ⟨hf, hwi⟩ := compactDamage_within overlaps hcl hwd hhe dmg
  generalize compactDamage overlaps intersection dmg width h' = rects at hf hwi
  refine or_iff_not_imp_left.mpr fun hs => ?_
  have hc : ∀ rect ∈ rects, DamageRect.ofRectangle rect =
      some ⟨rect.x.toNat, rect.y.toNat, rect.width.toNat, rect.height.toNat⟩ := by
    intro rect hre
    obtain ⟨hx, hy, hw, hh, -, -⟩ := hwi rect hre
    exact if_pos ⟨hx, hy, hw.le, hh.le⟩
  refine ⟨fun hn => ?_, ?_, fun sent hse => ?_⟩
  · obtain ⟨rect, hre⟩ := exists_mem_of_ne_nil rects hs
    have hrj := filterMap_eq_nil_iff.mp hn rect hre
    rw [hc rect hre] at hrj
    cases hrj
  · exact (length_filterMap_le _ _).trans (hf.trans (by decide))
  · obtain ⟨rect, hre, heq⟩ := mem_filterMap.mp hse
    rw [hc rect hre] at heq
    cases heq
    obtain ⟨hx, hy, hw, hh, hr, hb⟩ := hwi rect hre
    dsimp only
    omega

theorem fits_whole {width h' : ℤ} (hw : 0 < width) (hh : 0 < h') :
    Fits [⟨0, 0, width, h'⟩] width h' := by
  have hs : [(⟨0, 0, width, h'⟩ : Rectangle)].filterMap DamageRect.ofRectangle =
      [⟨0, 0, width.toNat, h'.toNat⟩] := by
    simp [DamageRect.ofRectangle, hw.le, hh.le]
  refine ⟨?_, ?_, ?_⟩
  · simp [hs]
  · simp [hs, maxDamageRects]
  · simp only [hs, mem_singleton, forall_eq]
    omega

theorem Prepared.fits (hc : Clips intersection) {width h' : ℤ} (hw : 0 < width) (hh : 0 < h')
    {dmg : List Rectangle} (h : Prepared overlaps intersection width h' dmg) :
    dmg = [] ∨ Fits dmg width h' := by
  cases h with
  | whole => exact .inr (fits_whole hw hh)
  | compacted pend => exact fits_compactDamage hc hw.le hh.le pend

/-! Runs. -/

variable {remote next : Remote B S} {c sid : ℕ}

/-- All frames that were sent are rendered, and those in the queues will be. -/
structure Rendering (remote : Remote B S) : Prop where
  sent : ∀ c, ∀ message ∈ (remote.clients c).allMessages, Agrees message
  queued : ∀ entry ∈ remote.broker.consumers, ∀ frame ∈ entry.2.queue, Renders frame

/-- The damage that is published is empty or fits. -/
def PublishesFitting : RemoteEvent B S → Prop
  | .publish _ _ geometry damage _ => damage = [] ∨ Fits damage geometry.width geometry.height
  | _ => True

theorem agrees_event {event : Capture.Event S} (he : ∀ frame, event ≠ .frameReady frame) :
    Agrees (⟨event, none⟩ : RemoteOutbound B S) :=
  fun frame hf => absurd hf (he frame)

/-- One client goes on. -/
theorem Rendering.thread (h : Rendering remote) (c : ℕ) (cl : Client B S)
    (commands : List RemoteCommand)
    (hc : ∀ message ∈ cl.allMessages, message ∈ (remote.clients c).allMessages ∨ Agrees message) :
    Rendering { remote with clients := update remote.clients c cl, commands } := by
  refine ⟨fun d message hm => ?_, h.queued⟩
  by_cases hs : d = c
  · subst hs
    simp only [update_self] at hm
    exact (hc message hm).elim (h.sent d message) id
  · simp only [update_of_ne hs] at hm
    exact h.sent d message hm

theorem Rendering.finish (h : Rendering remote) (c : ℕ) (cl : Client B S)
    (commands : List RemoteCommand)
    (hr : ∀ message ∈ cl.received, message ∈ (remote.clients c).allMessages) :
    Rendering { remote with clients := update remote.clients c cl.finish, commands } := by
  refine h.thread c _ commands fun message hm => .inl (hr message ?_)
  simpa [Client.allMessages, Client.finish] using hm

theorem Rendering.accept (h : Rendering remote) (hst : remote.accept = some next) :
    Rendering next := by
  obtain ⟨-, rfl⟩ := accept_eq_some hst
  refine ⟨fun d message hm => ?_, h.queued⟩
  by_cases hs : d = remote.accepted
  · subst hs
    simp [Remote.setClient, Client.allMessages] at hm
  · simp only [Remote.setClient, update_of_ne hs] at hm
    exact h.sent d message hm

variable {message : RemoteOutbound B S}

theorem mem_allMessages_received {cl : Client B S}
    (h : message ∈ cl.received) : message ∈ cl.allMessages :=
  cl.received_initial.subset h

theorem Rendering.request (h : Rendering remote) {req : Option Request}
    (hs : remote.request c req = some next) : Rendering next := by
  cases requested_request hs with
  | failed hp =>
    exact h.finish c _ remote.commands fun message hm => mem_allMessages_received hm
  | refused hp =>
    refine h.thread c _ remote.commands fun message hm => ?_
    simp only [Client.allMessages, mem_append, mem_cons] at hm
    simp only [Client.allMessages, hp, mem_append]
    obtain hm | rfl | hm := hm
    · exact .inl (.inl hm)
    · exact .inr (agrees_event fun _ hf => by cases hf)
    · exact .inl (.inr hm)
  | started hp oid =>
    refine h.thread c _ _ fun message hm => .inl (mem_allMessages_received ?_)
    simpa [Client.allMessages] using hm

theorem Rendering.recv (h : Rendering remote) (hst : remote.recv c = some next) :
    Rendering next := by
  cases received_recv hst with
  | greeting id message incoming hp hi hs =>
    refine h.thread c _ remote.commands fun other ho => .inl ?_
    simpa [Client.allMessages, hp, hi] using ho
  | refusing message incoming hp hi hs =>
    refine h.thread c _ remote.commands fun other ho => .inl ?_
    simpa [Client.allMessages, hp, hi] using ho
  | abandoned hp hi hse =>
    exact h.finish c _ remote.commands fun message hm => mem_allMessages_received hm
  | sending id message incoming hp hi =>
    refine h.thread c _ remote.commands fun other ho => .inl ?_
    simpa [Client.allMessages, hp, hi] using ho
  | closed id hp hi hse =>
    exact h.finish c _ _ fun message hm => mem_allMessages_received hm

theorem Rendering.write (h : Rendering remote) {wr : Written} {spn : Bool}
    (hs : remote.write c wr spn = some next) : Rendering next := by
  cases wrote_write hs with
  | refused message hp =>
    refine h.finish c _ remote.commands fun other ho => ?_
    simp only [mem_append, mem_singleton] at ho
    simp only [Client.allMessages, hp, mem_append, mem_cons]
    exact ho.imp_right .inl
  | unheard message hp =>
    exact h.finish c _ remote.commands fun message hm => mem_allMessages_received hm
  | greeted id message hp spn =>
    refine h.thread c _ remote.commands fun other ho => .inl ?_
    simpa [Client.allMessages, hp] using ho
  | ended id message hp ht =>
    refine h.finish c _ _ fun other ho => ?_
    simp only [mem_append, mem_singleton] at ho
    simp only [Client.allMessages, hp, mem_append, mem_cons]
    exact ho.imp_right .inl
  | sent id message hp ht =>
    refine h.thread c _ remote.commands fun other ho => .inl ?_
    simpa [Client.allMessages, hp] using ho
  | failed id hk hp hw =>
    exact h.finish c _ _ fun message hm => mem_allMessages_received hm

theorem Rendering.read (h : Rendering remote) {req : Option Request}
    (hs : remote.read c req = some next) : Rendering next := by
  have hr : ∀ reader connected commands, Rendering { remote with
      clients := update remote.clients c { remote.clients c with reader, connected }
      commands } :=
    fun _ _ commands => h.thread c _ commands fun _ hm => .inl hm
  cases hasRead_read hs with
  | ignored => exact h
  | stopped id hre => exact hr _ _ _
  | ended id hre => exact hr _ _ _

theorem Rendering.push (h : Rendering remote) (c : ℕ)
    (hm : Agrees message) : Rendering (remote.setClient c
      { remote.clients c with incoming := (remote.clients c).incoming ++ [message] }) := by
  refine h.thread c _ remote.commands fun other ho => ?_
  rw [Client.allMessages_push, mem_append, mem_singleton] at ho
  obtain ho | rfl := ho
  · exact .inl ho
  · exact .inr hm

theorem Rendering.trySend (h : Rendering remote) (c : ℕ) (hm : Agrees message)
    : Rendering (remote.trySend c message).1 := by
  unfold Remote.trySend
  dsimp only
  split
  · exact h
  · split
    · exact h
    · exact h.push c hm

theorem Rendering.removeSession (h : Rendering remote) (sid : ℕ) :
    Rendering (remote.removeSession sid) := by
  unfold Remote.removeSession
  split
  · exact h
  · refine ⟨h.sent, fun e he => h.queued e ?_⟩
    exact mem_of_mem_filter he

theorem Rendering.drain (h : Rendering remote) (ho : Owned remote)
    (hst : remote.drainCommand = some next) : Rendering next := by
  cases drained_drainCommand hst with
  | start oid c rest hcm =>
    obtain ⟨hse, hc, hph, hi, -⟩ := ho.before_start hcm
    have ha : (remote.clients c).alive := by simp [Client.alive, hph]
    have hpu : ∀ event : Capture.Event S, (∀ frame, event ≠ .frameReady frame) →
        Rendering (remote.setClient c { remote.clients c with incoming := [⟨event, none⟩] }) := by
      intro event he
      have hp := h.push c (agrees_event (B := B) he)
      rwa [hi] at hp
    obtain ⟨message, heq⟩ | ⟨broker, cid, std, hb, hs, heq⟩ :=
      startSession_cases ({ remote with commands := rest } : Remote B S) oid hse hc ha hi
    · rw [heq]
      have hp := hpu (.error message) fun _ hf => by cases hf
      exact ⟨hp.sent, hp.queued⟩
    · rw [heq]
      have hp := hpu std fun frame hf => by
        rw [hf] at hs
        cases hs
      refine ⟨hp.sent, fun e hen frame hf => ?_⟩
      have hn : e = (cid, CaptureConsumer.register oid 2) := by
        simpa [Remote.setClient, hb] using hen
      rw [hn] at hf
      cases hf
  | disconnected id rest hcm =>
    have hpo : Rendering { remote with commands := rest } := ⟨h.sent, h.queued⟩
    exact hpo.removeSession id
  | stop id rest hcm =>
    have hpo : Rendering { remote with commands := rest } := ⟨h.sent, h.queued⟩
    unfold Remote.stopSession
    split
    · exact hpo
    · exact (hpo.removeSession id).trySend _ (agrees_event fun _ hf => by cases hf)

theorem Rendering.withConsumer (h : Rendering remote) {cid : ℕ}
    {cons : CaptureConsumer B S} (hc : ∀ frame ∈ cons.queue, Renders frame) :
    Rendering (remote.withConsumer cid cons) := by
  refine ⟨h.sent, fun e he => ?_⟩
  rw [mem_singleton.mp he]
  exact hc

/-- The newest frame is rendered, also when it stands for others. -/
theorem renders_latest {cons : CaptureConsumer B S}
    (h : ∀ frame ∈ cons.queue, Renders frame) (hl : cons.latest = some frame) :
    Renders frame := by
  obtain ⟨newest, hn, ht⟩ := Option.map_eq_some_iff.mp hl
  subst ht
  split
  · exact renders_full newest
  · exact h newest (mem_of_getLast? hn)

theorem Rendering.exportFrames (h : Rendering remote) (ho : Owned remote) (readback : ℕ → Option ℕ)
    (sealed : ℕ → Bool) :
    Rendering (remote.exportFrames readback sealed) := by
  obtain ⟨hs, -⟩ | ⟨id, sess, cons, res, -, hc, -, hex, heq⟩ :=
    exportFrames_cases ho.held readback sealed
  · rw [hs]
    exact h
  · have hq : ∀ frame ∈ cons.queue, Renders frame :=
      h.queued (sess.consumerId, cons) (by simp [hc])
    have he : ∀ needsFullRefresh, Rendering (remote.withConsumer sess.consumerId
        { cons with queue := [], needsFullRefresh }) :=
      fun _ => h.withConsumer fun _ hf => absurd hf not_mem_nil
    rw [heq]
    cases hex with
    | idle hn => exact he _
    | lost frame hf hp => exact he _
    | sent frame hf len hp ha hpl =>
      exact (he _).push sess.outbound ((renders_latest hq hf).agrees id len)
    | full frame hf len hp ha hfu => exact he _
    | gone frame hf len hp ha => exact (he _).removeSession id

theorem Rendering.map (h : Rendering remote) (f : CaptureConsumer B S → CaptureConsumer B S)
    {broker : OutputCaptureBroker B S} (published : ℕ → Option B)
    (hb : broker.consumers = remote.broker.consumers.map fun e => (e.1, f e.2))
    (hf : ∀ cons, (∀ frame ∈ cons.queue, Renders frame) → ∀ frame ∈ (f cons).queue, Renders frame) :
    Rendering { remote with broker, published } := by
  refine ⟨h.sent, fun e he => ?_⟩
  obtain ⟨pre, hp, rfl⟩ := mem_map.mp (hb ▸ he)
  exact hf pre.2 (h.queued pre hp)

theorem renders_publish [BEq S] (hf : frame.damage = [] ∨
    Fits frame.damage frame.geometry.width frame.geometry.height) (cons : CaptureConsumer B S)
    (h : ∀ frame ∈ cons.queue, Renders frame) :
    ∀ other ∈ (cons.publish frame).queue, Renders other := by
  unfold CaptureConsumer.publish
  cases hs : cons.skips frame.geometry frame.damage with
  | true => exact h
  | false =>
    rw [if_neg Bool.false_ne_true]
    intro other ho
    obtain ho | ho := mem_append.mp ho
    · split at ho
      · exact h other (mem_of_mem_tail ho)
      · exact h other ho
    · rw [mem_singleton.mp ho]
      split
      · exact renders_full frame
      · rename_i hp
        refine .inr (hf.resolve_left fun hno => ?_)
        -- Without damage a frame is published only as a full refresh.
        simp only [Bool.or_eq_true, not_or, Bool.not_eq_true] at hp
        obtain ⟨⟨hn, hc⟩, -⟩ := hp
        simp [CaptureConsumer.skips, hno, hn, hc] at hs

theorem Rendering.publish [BEq S] (h : Rendering remote) {geo : CaptureGeometry S}
    {dmg : List Rectangle} (hd : dmg = [] ∨ Fits dmg geo.width geo.height)
    (oid : ℕ) (buf : B) (capturedAt : ℕ) (published : ℕ → Option B) :
    Rendering { remote with
      broker := (remote.broker.publish oid buf geo dmg capturedAt).1
      published } := by
  unfold OutputCaptureBroker.publish
  split
  · let serial := saturatingAdd ((getKey oid remote.broker.outputSerials).getD 0) 1
    let frame : CaptureFrame B S := ⟨oid, serial, capturedAt, geo, buf, dmg, false⟩
    refine h.map (fun cons =>
      if cons.outputId = oid then cons.publish frame else cons) _ rfl ?_
    intro cons hc
    split
    · exact renders_publish hd cons hc
    · exact hc
  · exact ⟨h.sent, h.queued⟩

theorem rendering_step [BEq S] {event : RemoteEvent B S} (hs : remote.step event = some next)
    (he : PublishesFitting event) (hp : Owned remote ∧ Rendering remote) :
    Owned next ∧ Rendering next := by
  obtain ⟨ho, h⟩ := hp
  refine ⟨owned_step hs ho, ?_⟩
  cases event with
  | accept => exact h.accept hs
  | request c request => exact h.request hs
  | recv c => exact h.recv hs
  | write c wr spn => exact h.write hs
  | read c request => exact h.read hs
  | drainCommand => exact h.drain ho hs
  | exportFrames readback sealed =>
    cases hs
    exact h.exportFrames ho readback sealed
  | publish oid buf geo dmg capturedAt =>
    cases hs
    exact h.publish he oid buf capturedAt _
  | invalidateOutput oid =>
    cases hs
    refine h.map (fun cons =>
      if cons.outputId = oid then cons.invalidate else cons) _ rfl ?_
    intro cons hc
    split
    · exact fun _ hf => absurd hf not_mem_nil
    · exact hc
  | invalidateAll =>
    cases hs
    exact h.map CaptureConsumer.invalidate _ rfl fun _ _ _ hf =>
      absurd hf not_mem_nil
  | setOutputs outputs =>
    cases hs
    exact ⟨h.sent, h.queued⟩

theorem rendering_start (outputs : ℕ → Option (CaptureGeometry S)) :
    Rendering (Remote.start outputs : Remote B S) := by
  refine ⟨fun c message hm => ?_, fun e he => ?_⟩
  · simp [Remote.start, Client.absent, Client.allMessages] at hm
  · simp [Remote.start, OutputCaptureBroker.empty] at he

/-- Every frame that is sent is rendered, when the damage that is published fits. What the renderer
publishes fits, whatever was damaged. -/
theorem frames_rendered [BEq S] (overlaps : Rectangle → Rectangle → Bool)
    (intersection : Rectangle → Rectangle → Option Rectangle) (hclips : Clips intersection)
    (outputs : ℕ → Option (CaptureGeometry S)) (events : List (RemoteEvent B S))
    (final : Remote B S) (hevents : ∀ event ∈ events, PublishesFitting event)
    (hrun : run Remote.step (Remote.start outputs) events = some final) :
    (∀ c, ∀ message ∈ (final.clients c).allMessages, Agrees message) ∧
      ∀ width height damage, 0 < width → 0 < height →
        Prepared overlaps intersection width height damage →
          damage = [] ∨ Fits damage width height := by
  have hm : Meets Remote.step (fun _ => PublishesFitting) (Remote.start outputs) events :=
    meets_of_forall fun event he _ => hevents event he
  have hf := run_invariant_of_meets rendering_step hm hrun
    ⟨owned_start outputs, rendering_start outputs⟩
  exact ⟨hf.2.sent, fun _ _ _ hw hh hd => hd.fits hclips hw hh⟩

/-! One client and an output of two pixels. -/

/-- The client gets a full frame, and then one with damage. -/
def damagedFrame (damage : List Rectangle) : List (RemoteEvent (ℕ × ℕ) Unit) :=
  Capture.firstFrame ++ Capture.secondFrame damage

def overlapsRect (a b : Rectangle) : Bool :=
  a.x < b.x + b.width && b.x < a.x + a.width && a.y < b.y + b.height && b.y < a.y + a.height

/-- Rectangles that only touch have an intersection without pixels. -/
def intersectRect (a b : Rectangle) : Option Rectangle :=
  let minX := max a.x b.x
  let minY := max a.y b.y
  let maxX := min (a.x + a.width) (b.x + b.width)
  let maxY := min (a.y + a.height) (b.y + b.height)
  if minX ≤ maxX ∧ minY ≤ maxY then some ⟨minX, minY, maxX - minX, maxY - minY⟩ else none

theorem clips_intersectRect : Clips intersectRect := by
  intro a b c hw hh hc
  simp only [intersectRect] at hc
  split at hc
  · cases hc
    dsimp only
    omega
  · cases hc

theorem toolkit_rects : Toolkit overlapsRect intersectRect where
  common a b p ha hb := by
    simp only [Rectangle.Covers] at ha hb
    refine ⟨_, if_pos (by omega), ?_⟩
    simp only [Rectangle.Covers]
    omega
  apart a b h p hp := by
    simp only [overlapsRect, Bool.and_eq_false_iff, decide_eq_false_iff_not] at h
    simp only [Rectangle.Covers] at hp
    omega

/-- A few rectangles are left, which cover the damage of the output and no pixel twice. -/
theorem compactDamage_tiled {overlaps : Rectangle → Rectangle → Bool}
    {intersection : Rectangle → Rectangle → Option Rectangle} (ht : Toolkit overlaps intersection)
    (damage : List Rectangle) (width height : ℤ) :
    Tiled (fun p => (⟨0, 0, width, height⟩ : Rectangle).Covers p ∧ Damaged damage p)
        (compactDamage overlaps intersection damage width height) ∧
      (compactDamage overlaps intersection damage width height).length ≤ maxRects := by
  have h := tiled_foldl ht ⟨0, 0, width, height⟩ damage
  unfold compactDamage
  generalize damage.foldl _ _ = rects at h
  dsimp only
  split
  case isTrue hl =>
    cases rects with
    | nil => cases hl
    | cons fst rest =>
      refine ⟨⟨fun p hp => ⟨_, mem_singleton_self _, ?_⟩, pairwise_singleton ..⟩, Nat.le_add_left 1 7⟩
      obtain ⟨rect, hm, hc⟩ := h.covers p hp
      have := @covers_bounds rest p (.of fst) <| (mem_cons.mp hm).imp
        (fun he => by rwa [he] at hc) fun hm => ⟨rect, hm, hc⟩
      simp only [Rectangle.Covers] at *
      omega
  case isFalse hl => exact ⟨h, Nat.le_of_not_lt hl⟩

theorem compactDamage_tiled_rects :
    (compactDamage overlapsRect intersectRect [⟨-1, 0, 3, 2⟩, ⟨1, 1, 9, 2⟩] 8 8).Pairwise
      Capture.Apart :=
  (compactDamage_tiled toolkit_rects [⟨-1, 0, 3, 2⟩, ⟨1, 1, 9, 2⟩] 8 8).1.apart

instance (event : FrameReady S) : Decidable (Acceptable event) :=
  inferInstanceAs (Decidable (_ ∧ _ ∧ (_ → _)))

theorem fits_second : Fits [⟨1, 0, 1, 1⟩] 2 1 := ⟨by decide, by decide, by decide⟩

theorem second_frame_rendered : ∃ final : Remote (ℕ × ℕ) Unit,
    run Remote.step (Remote.start twoPixelOutput) (damagedFrame [⟨1, 0, 1, 1⟩]) =
      some final ∧ (final.clients 0).received.length = 3 ∧
        ∀ message ∈ (final.clients 0).allMessages, Agrees message := by
  refine ⟨_, rfl, rfl, (frames_rendered overlapsRect intersectRect clips_intersectRect
    twoPixelOutput (damagedFrame [⟨1, 0, 1, 1⟩]) _ (fun event he => ?_) rfl).1 0⟩
  simp only [damagedFrame, Capture.firstFrame, Capture.secondFrame, exportAll, cons_append,
    nil_append, mem_cons, not_mem_nil, or_false] at he
  rcases he with rfl | rfl | rfl | rfl | rfl | rfl | rfl | rfl | rfl | rfl | rfl | rfl | rfl
  all_goals first | trivial | exact .inl rfl | exact .inr fits_second

/-- The client gets a frame of the output that is refused or cannot be rendered. -/
def TearsDown (damage : List Rectangle) : Prop :=
  ∃ final : Remote (ℕ × ℕ) Unit,
    run Remote.step (Remote.start twoPixelOutput) (damagedFrame damage) =
      some final ∧ ∃ message ∈ (final.clients 0).received, ¬ Agrees message

theorem not_agrees (he : message.event = .frameReady event) (hs : Sized event)
    (hst : event.stride = event.width * 4) (h : ¬ Acceptable event) : ¬ Agrees message :=
  fun ha => h ((rendered_iff hs hst).mp (ha event he hs))

/-- One rectangle goes over the edge, the only one is dropped, or there are too many. -/
theorem damage_tears_down : TearsDown [⟨1, 0, 2, 1⟩] ∧ TearsDown [⟨-1, 0, 1, 1⟩] ∧
    TearsDown (List.replicate 65 ⟨1, 0, 1, 1⟩) := by
  refine ⟨⟨_, rfl, _, .tail _ (.tail _ (.head _)), ?_⟩,
    ⟨_, rfl, _, .tail _ (.tail _ (.head _)), ?_⟩, ⟨_, rfl, _, .tail _ (.tail _ (.head _)), ?_⟩⟩
  · exact not_agrees rfl ⟨rfl, rfl, by decide⟩ rfl (by decide)
  · exact not_agrees rfl ⟨rfl, rfl, by decide⟩ rfl (by decide)
  · exact not_agrees rfl ⟨rfl, rfl, by decide⟩ rfl (by decide)

end FocalDesk.Remoted
