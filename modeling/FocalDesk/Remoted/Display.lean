import FocalDesk.Capture.Remote
import FocalDesk.Library.Result

/-! What a remote viewer is shown: frames in a channel that keeps the last one, and the updates
that are made of them. -/
namespace FocalDesk.Remoted
open Library Capture List Option Bool Prod Except

structure DesktopSize where
  width : ℕ
  height : ℕ
deriving DecidableEq

structure RemoteFrame where
  serial : ℕ
  width : ℕ
  height : ℕ
  stride : ℕ
  pixels : List UInt8
  damage : List DamageRect
  fullRefresh : Bool

def RemoteFrame.size (frame : RemoteFrame) : DesktopSize := ⟨frame.width, frame.height⟩

structure BitmapUpdate where
  x : ℕ
  y : ℕ
  width : ℕ
  height : ℕ
  data : List UInt8
  stride : ℕ

inductive DisplayUpdate where
  | resize (size : DesktopSize)
  | bitmap (bitmap : BitmapUpdate)

/-- The rows of a region, from row `y` on. -/
def regionRows (frame : RemoteFrame) (x rowBytes : ℕ) : ℕ → ℕ → Except String (List UInt8)
  | _, 0 => .ok []
  | y, count + 1 => do
    let start := y * frame.stride + x * 4
    bailIf (frame.pixels.length < start + rowBytes) "damage rectangle exceeds frame buffer"
    let rest ← regionRows frame x rowBytes (y + 1) count
    .ok ((frame.pixels.drop start).take rowBytes ++ rest)

/-- A frame has at most 65535 columns and rows, so that no offset in it is too large. -/
def bitmapRegion (frame : RemoteFrame) (damage : DamageRect) : Except String BitmapUpdate := do
  bailIf (2 ^ 32 ≤ damage.x + damage.width) "damage x overflow"
  bailIf (2 ^ 32 ≤ damage.y + damage.height) "damage y overflow"
  bailIf (damage.width = 0 ∨ damage.height = 0 ∨ frame.width < damage.x + damage.width ∨
    frame.height < damage.y + damage.height) "invalid remote damage rectangle"
  let data ← regionRows frame damage.x (damage.width * 4) damage.y damage.height
  .ok ⟨damage.x, damage.y, damage.width, damage.height, data, damage.width * 4⟩

def bitmapUpdates (frame : RemoteFrame) (forceFull : Bool) : Except String (List BitmapUpdate) :=
  if forceFull then do
    bailIf (frame.width = 0) "validated frame width"
    bailIf (frame.height = 0) "validated frame height"
    .ok [⟨0, 0, frame.width, frame.height, frame.pixels, frame.stride⟩]
  else frame.damage.mapM (bitmapRegion frame)

structure DisplayUpdates where
  size : DesktopSize
  lastSerial : Option ℕ
  pendingAfterResize : Option RemoteFrame
  pendingBitmaps : List BitmapUpdate

namespace DisplayUpdates

variable (display : DisplayUpdates)

def started (size : DesktopSize) : DisplayUpdates := ⟨size, none, none, []⟩

def queueFrame (frame : RemoteFrame) (forceFull : Bool) : Except String DisplayUpdates := do
  let pendingBitmaps ← bitmapUpdates frame forceFull
  .ok { display with lastSerial := some frame.serial, pendingBitmaps }

def popBitmap : DisplayUpdates × Option DisplayUpdate :=
  match display.pendingBitmaps with
  | [] => (display, none)
  | bitmap :: rest => ({ display with pendingBitmaps := rest }, some (.bitmap bitmap))

def dropped (frame : RemoteFrame) : ℕ :=
  display.lastSerial.elim 0 fun last => frame.serial - (last + 1)

/-- One look at the channel: without an update the call goes on waiting. -/
def nextUpdate (latest : Option RemoteFrame) :
    Except String (DisplayUpdates × Option DisplayUpdate) :=
  match display.pendingBitmaps, display.pendingAfterResize, latest with
  | _ :: _, _, _ => .ok display.popBitmap
  | [], some frame, _ => do
    let display ← { display with pendingAfterResize := none }.queueFrame frame true
    .ok display.popBitmap
  | [], none, none => .ok (display, none)
  | [], none, some frame =>
    if display.lastSerial = some frame.serial then .ok (display, none)
    else if frame.size ≠ display.size then
      .ok ({ display with
          size := frame.size
          pendingBitmaps := []
          pendingAfterResize := some frame }, some (.resize frame.size))
    else do
      let forceFull :=
        frame.fullRefresh || display.lastSerial.isNone || decide (0 < display.dropped frame)
      let display ← display.queueFrame frame forceFull
      .ok display.popBitmap

/-- The frame that the call takes from the channel. -/
def takes (latest : Option RemoteFrame) : Option RemoteFrame :=
  match display.pendingBitmaps, display.pendingAfterResize with
  | [], none => latest.filter fun frame => display.lastSerial ≠ some frame.serial
  | _, _ => none

end DisplayUpdates

/-! The viewer. -/

/-- The four bytes of a pixel. -/
def pixelAt (data : List UInt8) (stride x y : ℕ) : List UInt8 :=
  (data.drop (y * stride + x * 4)).take 4

def RemoteFrame.pixel (frame : RemoteFrame) (x y : ℕ) : List UInt8 :=
  pixelAt frame.pixels frame.stride x y

def RemoteFrame.contains (frame : RemoteFrame) (x y : ℕ) : Bool :=
  decide (x < frame.width) && decide (y < frame.height)

structure Viewer where
  size : DesktopSize
  image : ℕ → ℕ → List UInt8

namespace BitmapUpdate

def covers (bitmap : BitmapUpdate) (x y : ℕ) : Bool :=
  decide (bitmap.x ≤ x) && decide (x < bitmap.x + bitmap.width) && decide (bitmap.y ≤ y) &&
    decide (y < bitmap.y + bitmap.height)

/-- The bitmap is inside a desktop. -/
def Inside (bitmap : BitmapUpdate) (size : DesktopSize) : Prop :=
  bitmap.x + bitmap.width ≤ size.width ∧ bitmap.y + bitmap.height ≤ size.height

end BitmapUpdate

namespace Viewer

def draw (viewer : Viewer) (bitmap : BitmapUpdate) : Viewer :=
  { viewer with
    image := fun x y =>
      if bitmap.covers x y then pixelAt bitmap.data bitmap.stride (x - bitmap.x) (y - bitmap.y)
      else viewer.image x y }

/-- A viewer of another size has no pixels. -/
def apply (viewer : Viewer) : DisplayUpdate → Viewer
  | .resize size => ⟨size, fun _ _ => []⟩
  | .bitmap bitmap => viewer.draw bitmap

/-- The viewer has the size and the pixels of a frame. -/
def Shows (viewer : Viewer) (frame : RemoteFrame) : Prop :=
  viewer.size = frame.size ∧ ∀ x < frame.width, ∀ y < frame.height,
    viewer.image x y = frame.pixel x y

end Viewer

/-! The frames that are stored. -/

def damageCovers (damage : DamageRect) (x y : ℕ) : Bool :=
  decide (damage.x ≤ x) && decide (x < damage.x + damage.width) && decide (damage.y ≤ y) &&
    decide (y < damage.y + damage.height)

/-- The damage of a frame covers where it differs from another frame. -/
def RemoteFrame.coversChanges (frame previous : RemoteFrame) : Bool :=
  (List.range frame.width).all fun x => (List.range frame.height).all fun y =>
    (previous.contains x y && decide (frame.pixel x y = previous.pixel x y)) ||
      frame.damage.any fun damage => damageCovers damage x y

/-- The stored frames, the last first, the channel, one connection with its viewer, and the frame
that the connection took last. -/
structure System where
  stored : List RemoteFrame
  channel : Option RemoteFrame
  display : DisplayUpdates
  viewer : Viewer
  taken : Option RemoteFrame

inductive Event where
  | store (frame : RemoteFrame)
  | reset
  | nextUpdate

def System.started (size : DesktopSize) (image : ℕ → ℕ → List UInt8) : System :=
  ⟨[], none, .started size, ⟨size, image⟩, none⟩

/-- Frames are numbered from 1 on. An update that fails ends the connection. -/
def step (s : System) : Event → Option System
  | .store frame =>
    let frame := { frame with serial := s.stored.length + 1 }
    if frame.fullRefresh || s.stored.head?.all frame.coversChanges then
      some { s with stored := frame :: s.stored, channel := some frame }
    else none
  | .reset => some { s with channel := none }
  | .nextUpdate =>
    match s.display.nextUpdate s.channel with
    | .error _ => none
    | .ok (display, update) => some { s with
        display
        viewer := update.elim s.viewer s.viewer.apply
        taken := (s.display.takes s.channel).or s.taken }

/-! The bitmaps of a frame. -/

variable {frame previous : RemoteFrame} {dmg : DamageRect} {viewer : Viewer}
  {bitmap : BitmapUpdate} {bitmaps : List BitmapUpdate} {x y : ℕ}

theorem pixelAt_append_row {row rest : List UInt8} {rowBytes : ℕ} (hr : row.length = rowBytes)
    (x y : ℕ) : pixelAt (row ++ rest) rowBytes x (y + 1) = pixelAt rest rowBytes x y := by
  unfold pixelAt
  rw [show (y + 1) * rowBytes + x * 4 = rowBytes + (y * rowBytes + x * 4) by
    rw [Nat.add_mul, Nat.one_mul]; omega]
  rw [← drop_drop, drop_left' hr]

theorem pixelAt_first_row {data rest : List UInt8} {start rowBytes x : ℕ}
    (hx : x * 4 + 4 ≤ rowBytes) (hd : start + rowBytes ≤ data.length) :
    pixelAt ((data.drop start).take rowBytes ++ rest) rowBytes x 0 =
      (data.drop (start + x * 4)).take 4 := by
  unfold pixelAt
  rw [Nat.zero_mul, Nat.zero_add, drop_append_of_le_length (by simp; omega),
    take_append_of_le_length (by simp; omega), drop_take, take_take, drop_drop,
    Nat.min_eq_left (by omega)]

/-- The rows of a region have its pixels. -/
theorem pixelAt_regionRows {rowBytes y count : ℕ} {data : List UInt8}
    (h : regionRows frame x rowBytes y count = .ok data) {i j : ℕ} (hi : i * 4 + 4 ≤ rowBytes)
    (hj : j < count) : pixelAt data rowBytes i j = frame.pixel (x + i) (y + j) := by
  induction count generalizing y j data with
  | zero => cases hj
  | succ count ih =>
    simp only [regionRows, bind_eq_ok, bailIf_eq_ok, exists_const, ok.injEq] at h
    obtain ⟨hl, rest, hr, rfl⟩ := h
    have hd : y * frame.stride + x * 4 + rowBytes ≤ frame.pixels.length := by omega
    cases j with
    | zero =>
      rw [pixelAt_first_row hi hd, RemoteFrame.pixel, pixelAt, Nat.add_zero,
        show y * frame.stride + x * 4 + i * 4 = y * frame.stride + (x + i) * 4 by omega]
    | succ j =>
      rw [pixelAt_append_row (by simp; omega), ih hr (by omega)]
      congr 1
      omega

theorem bitmapRegion_eq_ok (h : bitmapRegion frame dmg = .ok bitmap) :
    bitmap.Inside frame.size ∧ (∀ x y, bitmap.covers x y = damageCovers dmg x y) ∧
      ∀ x y, bitmap.covers x y →
        pixelAt bitmap.data bitmap.stride (x - bitmap.x) (y - bitmap.y) = frame.pixel x y := by
  simp only [bitmapRegion, bind_eq_ok, bailIf_eq_ok, exists_const, ok.injEq] at h
  obtain ⟨-, -, hv, data, hd, rfl⟩ := h
  refine ⟨⟨by simp only [RemoteFrame.size]; omega, by simp only [RemoteFrame.size]; omega⟩,
    fun _ _ => rfl, fun x y hc => ?_⟩
  simp only [BitmapUpdate.covers, and_eq_true, decide_eq_true_eq] at hc
  obtain ⟨⟨⟨hl, hr⟩, ht⟩, hb⟩ := hc
  have hi : (x - dmg.x) * 4 + 4 ≤ dmg.width * 4 := by omega
  have hj : y - dmg.y < dmg.height := by omega
  rw [pixelAt_regionRows hd hi hj, Nat.add_sub_cancel' hl, Nat.add_sub_cancel' ht]

/-- Regions are drawn over what they cover, and leave the rest. -/
theorem draw_regions {damages : List DamageRect}
    (h : damages.mapM (bitmapRegion frame) = .ok bitmaps) :
    (∀ bitmap ∈ bitmaps, bitmap.Inside frame.size) ∧
      ∀ viewer : Viewer, viewer.size = frame.size →
        (∀ x < frame.width, ∀ y < frame.height, viewer.image x y = frame.pixel x y ∨
          ∃ dmg ∈ damages, damageCovers dmg x y) →
            (bitmaps.foldl Viewer.draw viewer).Shows frame := by
  induction damages generalizing bitmaps with
  | nil =>
    rw [mapM_nil, pure_eq_ok] at h
    subst h
    refine ⟨fun _ hm => absurd hm not_mem_nil, fun viewer hs hi => ⟨hs, ?_⟩⟩
    intro x hx y hy
    refine (hi x hx y hy).resolve_right ?_
    rintro ⟨_, hm, -⟩
    exact absurd hm not_mem_nil
  | cons dmg damages ih =>
    simp only [mapM_cons, bind_eq_ok, pure_eq_ok] at h
    obtain ⟨bitmap, hr, rest, hre, rfl⟩ := h
    obtain ⟨his, hc, hp⟩ := bitmapRegion_eq_ok hr
    obtain ⟨hin, hd⟩ := ih hre
    refine ⟨forall_mem_cons.mpr ⟨his, hin⟩, fun viewer hs hi => ?_⟩
    rw [foldl_cons]
    refine hd (viewer.draw bitmap) hs fun x hx y hy => ?_
    by_cases hco : bitmap.covers x y
    · refine .inl ?_
      simp only [Viewer.draw, if_pos hco, hp x y hco]
    · simp only [Viewer.draw, if_neg hco]
      refine (hi x hx y hy).imp_right ?_
      rintro ⟨other, hother, hc'⟩
      obtain rfl | hother := mem_cons.mp hother
      · rw [← hc] at hc'
        exact absurd hc' hco
      · exact ⟨other, hother, hc'⟩

theorem draw_full (viewer : Viewer) (hs : viewer.size = frame.size) :
    (viewer.draw ⟨0, 0, frame.width, frame.height, frame.pixels, frame.stride⟩).Shows frame := by
  refine ⟨hs, fun x hx y hy => ?_⟩
  simp [Viewer.draw, BitmapUpdate.covers, hx, hy, RemoteFrame.pixel]

/-- What the bitmaps of a frame make of a viewer that may show the frame before. -/
theorem draw_updates (viewer : Viewer) {forceFull : Bool}
    (h : bitmapUpdates frame forceFull = .ok bitmaps)
    (hs : viewer.size = frame.size)
    (hc : forceFull = false → ∀ x < frame.width, ∀ y < frame.height,
      viewer.image x y = frame.pixel x y ∨ ∃ dmg ∈ frame.damage, damageCovers dmg x y) :
    (∀ bitmap ∈ bitmaps, bitmap.Inside frame.size) ∧
      (bitmaps.foldl Viewer.draw viewer).Shows frame := by
  cases forceFull with
  | true =>
    simp only [bitmapUpdates, if_true, bind_eq_ok, bailIf_eq_ok, exists_const, ok.injEq] at h
    obtain ⟨-, -, rfl⟩ := h
    refine ⟨fun bitmap hb => ?_, draw_full viewer hs⟩
    rw [mem_singleton.mp hb]
    exact ⟨by simp [RemoteFrame.size], by simp [RemoteFrame.size]⟩
  | false =>
    obtain ⟨hi, hd⟩ := draw_regions h
    exact ⟨hi, hd viewer hs (hc rfl)⟩

/-- What the changes of a frame leave of the frame before. -/
theorem changed_of_coversChanges (h : frame.coversChanges previous) (hs : viewer.Shows previous)
    : ∀ x < frame.width, ∀ y < frame.height,
      viewer.image x y = frame.pixel x y ∨ ∃ dmg ∈ frame.damage, damageCovers dmg x y := by
  intro x hx y hy
  have hxy := all_eq_true.mp (all_eq_true.mp h x (mem_range.mpr hx)) y
    (mem_range.mpr hy)
  rw [or_eq_true, and_eq_true] at hxy
  obtain ⟨hc, hsa⟩ | hcovered := hxy
  · simp only [RemoteFrame.contains, and_eq_true, decide_eq_true_eq] at hc
    rw [hs.2 x hc.1 y hc.2, of_decide_eq_true hsa]
    exact .inl rfl
  · exact .inr (any_eq_true.mp hcovered)

/-! The numbers of the stored frames. -/

def Numbered : List RemoteFrame → Prop
  | [] => True
  | frame :: rest => frame.serial = rest.length + 1 ∧ Numbered rest

theorem serial_le {stored : List RemoteFrame} (h : Numbered stored) (hmem : frame ∈ stored) :
    frame.serial ≤ stored.length := by
  induction stored with
  | nil => cases hmem
  | cons fst rest ih =>
    rw [length_cons]
    obtain rfl | hmem := mem_cons.mp hmem
    · exact h.1.le
    · exact (ih h.2 hmem).trans (Nat.le_succ _)

/-- The frame before the last one has the number before. -/
theorem eq_of_serial {last : RemoteFrame} {rest : List RemoteFrame}
    (h : Numbered (last :: rest)) (hmem : frame ∈ last :: rest)
    (hs : last.serial - (frame.serial + 1) = 0) :
    frame = last ∨ rest.head? = some frame := by
  obtain rfl | hmem := mem_cons.mp hmem
  · exact .inl rfl
  · refine .inr ?_
    have hl := h.1
    cases rest with
    | nil => cases hmem
    | cons fst rest =>
      obtain rfl | hmem := mem_cons.mp hmem
      · rfl
      · have hle := serial_le h.2.2 hmem
        rw [length_cons] at hl
        omega

/-! The runs. -/

/-- What the connection still has to send makes the viewer show the frame that it took. -/
structure Converges (s : System) : Prop where
  size : s.viewer.size = s.display.size
  numbered : Numbered s.stored
  covered : ∀ frame previous rest, s.stored = frame :: previous :: rest →
    frame.fullRefresh = true ∨ frame.coversChanges previous = true
  channel : ∀ frame, s.channel = some frame → s.stored.head? = some frame
  taken : ∀ frame, s.taken = some frame → frame ∈ s.stored
  first : s.taken = none → s.display.lastSerial = none ∧ s.display.pendingAfterResize = none ∧
    s.display.pendingBitmaps = []
  parked : ∀ frame, s.display.pendingAfterResize = some frame → s.taken = some frame ∧
    frame.size = s.display.size ∧ s.display.pendingBitmaps = []
  shown : s.display.pendingAfterResize = none → ∀ frame, s.taken = some frame →
    s.display.lastSerial = some frame.serial ∧
      (s.display.pendingBitmaps.foldl Viewer.draw s.viewer).Shows frame
  inside : ∀ bitmap ∈ s.display.pendingBitmaps, bitmap.Inside s.display.size

namespace DisplayUpdates

/-- What one look at the channel does, with the frame that it takes. -/
inductive Updated (display : DisplayUpdates) (latest : Option RemoteFrame) :
    DisplayUpdates → Option DisplayUpdate → Option RemoteFrame → Prop
  | send (h : display.pendingBitmaps ≠ []) :
      Updated display latest display.popBitmap.1 display.popBitmap.2 none
  | unpark {frame : RemoteFrame} {bitmaps : List BitmapUpdate} {next : DisplayUpdates}
      (hparked : display.pendingAfterResize = some frame)
      (hbitmaps : bitmapUpdates frame true = .ok bitmaps)
      (hnext : next = ⟨display.size, some frame.serial, none, bitmaps⟩) :
      Updated display latest next.popBitmap.1 next.popBitmap.2 none
  | wait (hpending : display.pendingBitmaps = []) : Updated display latest display none none
  | resize {frame : RemoteFrame} (hlatest : latest = some frame) :
      Updated display latest ⟨frame.size, display.lastSerial, some frame, []⟩
        (some (.resize frame.size)) (some frame)
  | queue {frame : RemoteFrame} {bitmaps : List BitmapUpdate} {next : DisplayUpdates}
      (hpending : display.pendingBitmaps = []) (hparked : display.pendingAfterResize = none)
      (hlatest : latest = some frame) (hnew : display.lastSerial ≠ some frame.serial)
      (hsize : frame.size = display.size)
      (hbitmaps : bitmapUpdates frame (frame.fullRefresh || display.lastSerial.isNone ||
        decide (0 < display.dropped frame)) = .ok bitmaps)
      (hnext : next = ⟨display.size, some frame.serial, none, bitmaps⟩) :
      Updated display latest next.popBitmap.1 next.popBitmap.2 (some frame)

variable {display next : DisplayUpdates} {lat : Option RemoteFrame} {upd : Option DisplayUpdate}

theorem updated_of_nextUpdate (h : display.nextUpdate lat = .ok (next, upd)) :
    Updated display lat next upd (display.takes lat) := by
  unfold nextUpdate at h
  unfold takes
  split at h
  · rename_i bitmap rest hpe
    have heq := Except.ok.inj h
    obtain rfl : display.popBitmap.1 = next := congrArg Prod.fst heq
    obtain rfl : display.popBitmap.2 = upd := congrArg Prod.snd heq
    simp only [hpe]
    exact .send (by rw [hpe]; exact List.cons_ne_nil _ _)
  · rename_i frame hpe hp
    simp only [queueFrame, bind_eq_ok, Except.ok.injEq] at h
    obtain ⟨qd, ⟨bitmaps, hb, rfl⟩, heq⟩ := h
    simp only [hpe, hp]
    obtain ⟨rfl, rfl⟩ := Prod.mk.inj heq
    exact .unpark hp hb rfl
  · rename_i hpe hp
    cases h
    simp only [hpe, hp, Option.filter_none]
    exact .wait hpe
  · rename_i frame hpe hp
    simp only [hpe, hp]
    split at h
    · rename_i hs
      cases h
      rw [Option.filter_some, if_neg (by simp [hs])]
      exact .wait hpe
    · rename_i hn
      rw [Option.filter_some, if_pos (by simpa using hn)]
      split at h
      · cases h
        exact .resize rfl
      · rename_i hsi
        simp only [queueFrame, bind_eq_ok, Except.ok.injEq] at h
        obtain ⟨qd, ⟨bitmaps, hb, rfl⟩, heq⟩ := h
        obtain ⟨rfl, rfl⟩ := Prod.mk.inj heq
        exact .queue hpe hp rfl hn (not_not.mp hsi) hb (by rw [hp])

/-- The bitmap that is sent and those that are left make the same of a viewer. -/
theorem draw_popBitmap (display : DisplayUpdates) (viewer : Viewer) :
    display.popBitmap.1.pendingBitmaps.foldl Viewer.draw
        (display.popBitmap.2.elim viewer viewer.apply) =
      display.pendingBitmaps.foldl Viewer.draw viewer := by
  unfold popBitmap
  cases hp : display.pendingBitmaps with
  | nil => simp [hp]
  | cons bitmap rest => rfl

theorem popBitmap_same (display : DisplayUpdates) (viewer : Viewer) :
    display.popBitmap.1.size = display.size ∧
      display.popBitmap.1.lastSerial = display.lastSerial ∧
        display.popBitmap.1.pendingAfterResize = display.pendingAfterResize ∧
          (display.popBitmap.2.elim viewer viewer.apply).size = viewer.size := by
  unfold popBitmap
  cases display.pendingBitmaps with
  | nil => exact ⟨rfl, rfl, rfl, rfl⟩
  | cons bitmap rest => exact ⟨rfl, rfl, rfl, rfl⟩

theorem mem_popBitmap (h : bitmap ∈ display.popBitmap.1.pendingBitmaps) :
    bitmap ∈ display.pendingBitmaps := by
  unfold popBitmap at h
  cases hp : display.pendingBitmaps with
  | nil => simp [hp] at h
  | cons fst rest =>
    rw [hp] at h
    exact mem_cons_of_mem _ h

end DisplayUpdates

variable {s t : System} {e : Event}

theorem converges_started (size : DesktopSize) (image : ℕ → ℕ → List UInt8) :
    Converges (.started size image) := by
  refine ⟨rfl, trivial, fun _ _ _ h => ?_, fun _ h => ?_, fun _ h => ?_, fun _ => ⟨rfl, rfl, rfl⟩,
    fun _ h => ?_, fun _ _ h => ?_, fun _ h => ?_⟩
  · cases h
  · cases h
  · cases h
  · cases h
  · cases h
  · cases h

theorem converges_store (h : Converges s) (hs : frame.serial = s.stored.length + 1)
    (hc : (frame.fullRefresh || s.stored.head?.all frame.coversChanges)) :
    Converges { s with stored := frame :: s.stored, channel := some frame } := by
  refine ⟨h.size, ⟨hs, h.numbered⟩, fun other previous rest heq => ?_, fun other ho => ?_,
    fun other ho => mem_cons_of_mem _ (h.taken other ho), h.first, h.parked, h.shown,
    h.inside⟩
  · obtain ⟨rfl, hr⟩ := cons.inj heq
    rw [hr, head?_cons, all_some, or_eq_true] at hc
    exact hc
  · cases ho
    rfl

/-- The changes of a frame that is not shown in full are made to the frame before. -/
theorem Converges.changes (h : Converges s) (hc : s.channel = some frame)
    (hn : s.display.lastSerial ≠ some frame.serial) (hpe : s.display.pendingBitmaps = [])
    (hp : s.display.pendingAfterResize = none)
    (hf : (frame.fullRefresh || s.display.lastSerial.isNone ||
      decide (0 < s.display.dropped frame)) = false) :
    ∀ x < frame.width, ∀ y < frame.height, s.viewer.image x y = frame.pixel x y ∨
      ∃ dmg ∈ frame.damage, damageCovers dmg x y := by
  simp only [or_eq_false_iff, decide_eq_false_iff_not, Nat.not_lt, Nat.le_zero_eq] at hf
  obtain ⟨⟨hfu, hso⟩, hd⟩ := hf
  cases ht : s.taken with
  | none =>
    rw [(h.first ht).1] at hso
    cases hso
  | some previous =>
    obtain ⟨hl, hsh⟩ := h.shown hp previous ht
    rw [hpe, foldl_nil] at hsh
    rw [DisplayUpdates.dropped, hl, elim_some] at hd
    have hh := h.channel frame hc
    have hm := h.taken previous ht
    rcases hs : s.stored with _ | ⟨fst, rest⟩
    · rw [hs] at hh
      cases hh
    · rw [hs] at hh hm
      obtain rfl := some.inj hh
      obtain rfl | hbefore := eq_of_serial (hs ▸ h.numbered) hm hd
      · exact absurd hl hn
      · obtain ⟨older, rfl⟩ := head?_eq_some_iff.mp hbefore
        have hco := (h.covered fst previous older hs).resolve_left (by simp [hfu])
        exact changed_of_coversChanges hco hsh

theorem converges_update (h : Converges s) {next : DisplayUpdates} {update : Option DisplayUpdate}
    {took : Option RemoteFrame} (hu : s.display.Updated s.channel next update took) :
    Converges { s with
      display := next
      viewer := update.elim s.viewer s.viewer.apply
      taken := took.or s.taken } := by
  cases hu with
  | send hpe =>
    obtain ⟨hs, hla, hp, hv⟩ := s.display.popBitmap_same s.viewer
    have hfr : s.display.pendingAfterResize = none := by
      by_contra hso
      obtain ⟨frame, hf⟩ := ne_none_iff_exists'.mp hso
      exact hpe (h.parked frame hf).2.2
    refine ⟨?_, h.numbered, h.covered, h.channel, h.taken, fun hn => ?_, fun frame hf => ?_,
      fun _ frame hf => ?_, fun bitmap hb => ?_⟩
    · exact hv.trans (h.size.trans hs.symm)
    · exact absurd (h.first hn).2.2 hpe
    · rw [hp, hfr] at hf
      cases hf
    · obtain ⟨hse, hsh⟩ := h.shown hfr frame hf
      rw [hla, DisplayUpdates.draw_popBitmap]
      exact ⟨hse, hsh⟩
    · rw [hs]
      exact h.inside bitmap (DisplayUpdates.mem_popBitmap hb)
  | @unpark frame bitmaps next hp hbi hne =>
    obtain ⟨hs, hla, hpa, hv⟩ := next.popBitmap_same s.viewer
    obtain ⟨ht, hf, -⟩ := h.parked frame hp
    obtain ⟨hi, hsh⟩ := draw_updates s.viewer hbi (h.size.trans hf.symm) (fun hfa => by cases hfa)
    subst hne
    refine ⟨?_, h.numbered, h.covered, h.channel, h.taken, fun hn => ?_, fun other ho => ?_,
      fun _ other ho => ?_, fun bitmap hb => ?_⟩
    · exact hv.trans (h.size.trans hs.symm)
    · cases ht.symm.trans hn
    · cases hpa.symm.trans ho
    · obtain rfl := some.inj (ht.symm.trans ho)
      rw [hla, DisplayUpdates.draw_popBitmap]
      exact ⟨rfl, hsh⟩
    · rw [hs, ← hf]
      exact hi bitmap (DisplayUpdates.mem_popBitmap hb)
  | wait hpe => exact h
  | @resize frame hl =>
    have hm : frame ∈ s.stored := by
      obtain ⟨rest, hst⟩ := head?_eq_some_iff.mp (h.channel frame hl)
      rw [hst]
      exact mem_cons_self
    refine ⟨rfl, h.numbered, h.covered, h.channel, fun other ho => ?_, fun hn => ?_,
      fun other ho => ?_, fun hn => ?_, fun bitmap hb => ?_⟩
    · cases ho
      exact hm
    · cases hn
    · cases ho
      exact ⟨rfl, rfl, rfl⟩
    · cases hn
    · cases hb
  | @queue frame bitmaps next hpe hp hl hnw hf hbi hne =>
    obtain ⟨hs, hla, hpa, hv⟩ := next.popBitmap_same s.viewer
    obtain ⟨hi, hsh⟩ := draw_updates s.viewer hbi (h.size.trans hf.symm) (h.changes hl hnw hpe hp)
    have hm : frame ∈ s.stored := by
      obtain ⟨rest, hst⟩ := head?_eq_some_iff.mp (h.channel frame hl)
      rw [hst]
      exact mem_cons_self
    subst hne
    refine ⟨?_, h.numbered, h.covered, h.channel, fun other ho => ?_, fun hn => ?_,
      fun other ho => ?_, fun _ other ho => ?_, fun bitmap hb => ?_⟩
    · exact hv.trans (h.size.trans hs.symm)
    · cases ho
      exact hm
    · cases hn
    · cases hpa.symm.trans ho
    · cases ho
      rw [hla, DisplayUpdates.draw_popBitmap]
      exact ⟨rfl, hsh⟩
    · rw [hs, ← hf]
      exact hi bitmap (DisplayUpdates.mem_popBitmap hb)

theorem mem_of_popBitmap {display : DisplayUpdates}
    (h : display.popBitmap.2 = some (.bitmap bitmap)) : bitmap ∈ display.pendingBitmaps := by
  unfold DisplayUpdates.popBitmap at h
  cases hp : display.pendingBitmaps with
  | nil =>
    rw [hp] at h
    cases h
  | cons fst rest =>
    rw [hp] at h
    cases h
    exact mem_cons_self

/-- A bitmap that is sent is inside of the viewer. -/
theorem Converges.sendsInside (h : Converges s) {next : DisplayUpdates}
    {update : Option DisplayUpdate} {took : Option RemoteFrame}
    (hup : s.display.Updated s.channel next update took)
    (hu : update = some (.bitmap bitmap)) : bitmap.Inside s.viewer.size := by
  rw [h.size]
  cases hup with
  | send hpe => exact h.inside bitmap (mem_of_popBitmap hu)
  | @unpark frame bitmaps next hp hb hn =>
    obtain ⟨-, hf, -⟩ := h.parked frame hp
    obtain ⟨hi, -⟩ := draw_updates s.viewer hb (h.size.trans hf.symm) (fun hfa => by cases hfa)
    subst hn
    rw [← hf]
    exact hi bitmap (mem_of_popBitmap hu)
  | wait hpe => cases hu
  | resize hl => cases hu
  | @queue frame bitmaps next hpe hp hl hne hf hb hn =>
    obtain ⟨hi, -⟩ := draw_updates s.viewer hb (h.size.trans hf.symm) (h.changes hl hne hpe hp)
    subst hn
    rw [← hf]
    exact hi bitmap (mem_of_popBitmap hu)

theorem converges_step (hs : step s e = some t) (h : Converges s) : Converges t := by
  cases e with
  | store frame =>
    simp only [step] at hs
    split at hs
    · rename_i hc
      cases hs
      exact converges_store h rfl hc
    · cases hs
  | reset =>
    cases hs
    refine ⟨h.size, h.numbered, h.covered, fun _ hn => ?_, h.taken, h.first, h.parked, h.shown,
      h.inside⟩
    cases hn
  | nextUpdate =>
    simp only [step] at hs
    split at hs
    · cases hs
    · rename_i display update hu
      cases hs
      exact converges_update h (DisplayUpdates.updated_of_nextUpdate hu)

/-- Without a bitmap left the viewer shows the frame that was taken last, and no bitmap is outside
of its size. -/
theorem view_converges {size : DesktopSize} {image : ℕ → ℕ → List UInt8} {es : List Event}
    (hrun : run step (.started size image) es = some s) :
    (s.display.pendingBitmaps = [] → s.display.pendingAfterResize = none →
      ∀ frame, s.taken = some frame → s.viewer.Shows frame) ∧
    ∀ next bitmap, s.display.nextUpdate s.channel = .ok (next, some (.bitmap bitmap)) →
      bitmap.Inside s.viewer.size := by
  have h := run_invariant converges_step hrun (converges_started size image)
  refine ⟨fun hp hpa frame ht => ?_, fun next bitmap hn => ?_⟩
  · have hs := (h.shown hpa frame ht).2
    rwa [hp] at hs
  · exact h.sendsInside (DisplayUpdates.updated_of_nextUpdate hn) rfl

def firstFrame : RemoteFrame := ⟨0, 2, 1, 8, [1, 2, 3, 4, 5, 6, 7, 8], [⟨0, 0, 2, 1⟩], true⟩

def secondFrame : RemoteFrame := ⟨0, 2, 1, 8, [1, 2, 3, 4, 9, 9, 9, 9], [⟨1, 0, 1, 1⟩], false⟩

/-- A resize, a full frame and a frame of which one pixel is sent. -/
def twoFrames : List Event :=
  [.store firstFrame, .nextUpdate, .reset, .nextUpdate, .store secondFrame, .nextUpdate]

theorem two_frames_shown : ∃ s, run step (.started ⟨1, 1⟩ fun _ _ => []) twoFrames = some s ∧
    s.viewer.image 1 0 = [9, 9, 9, 9] ∧ ∃ frame, s.taken = some frame ∧ s.viewer.Shows frame := by
  have he : (run step (.started ⟨1, 1⟩ fun _ _ => []) twoFrames).any (fun s =>
      decide (s.viewer.image 1 0 = [9, 9, 9, 9]) && s.display.pendingBitmaps.isEmpty &&
        s.display.pendingAfterResize.isNone && s.taken.isSome) = true := by decide +kernel
  obtain ⟨s, hr, hs⟩ := exists_run_of_any he
  simp only [and_eq_true, decide_eq_true_eq, List.isEmpty_iff, isNone_iff_eq_none,
    isSome_iff_exists] at hs
  obtain ⟨⟨⟨hi, hp⟩, hpa⟩, frame, ht⟩ := hs
  exact ⟨s, hr, hi, frame, ht, (view_converges hr).1 hp hpa frame ht⟩

end FocalDesk.Remoted
