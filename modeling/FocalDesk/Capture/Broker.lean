import FocalDesk.Integer
import FocalDesk.Library.AssocList

/-! The broker that hands the frames of outputs to bounded consumers. -/
namespace FocalDesk.Capture
open Library

def maxCaptureQueueDepth : ℕ := 2

inductive Transform where
  | normal
  | rotated90
  | rotated180
  | rotated270
  | flipped
  | flipped90
  | flipped180
  | flipped270
deriving DecidableEq

structure Rectangle where
  x : ℤ
  y : ℤ
  width : ℤ
  height : ℤ
deriving DecidableEq

abbrev Pixel := ℤ × ℤ

def Rectangle.Covers (rect : Rectangle) (p : Pixel) : Prop :=
  rect.x ≤ p.1 ∧ p.1 < rect.x + rect.width ∧ rect.y ≤ p.2 ∧ p.2 < rect.y + rect.height

instance (rect : Rectangle) (p : Pixel) : Decidable (rect.Covers p) :=
  inferInstanceAs (Decidable (_ ∧ _ ∧ _ ∧ _))

/-- A pixel is in one of the rectangles. -/
def Damaged (damage : List Rectangle) (p : Pixel) : Prop := ∃ rect ∈ damage, rect.Covers p

instance (damage : List Rectangle) (p : Pixel) : Decidable (Damaged damage p) :=
  inferInstanceAs (Decidable (∃ rect ∈ damage, _))

/-- Scales are floating-point numbers. -/
structure CaptureGeometry (S : Type) where
  width : ℤ
  height : ℤ
  scale : S
  transform : Transform
deriving BEq

structure CaptureFrame (B S : Type) where
  outputId : ℕ
  serial : ℕ
  capturedAt : ℕ
  geometry : CaptureGeometry S
  buffer : B
  damage : List Rectangle
  fullRefresh : Bool

inductive CaptureError where
  | invalidQueueDepth (requested : ℕ)
  | unknownConsumer (consumerId : ℕ)

structure CaptureConsumer (B S : Type) where
  outputId : ℕ
  queueLimit : ℕ
  queue : List (CaptureFrame B S)
  lastGeometry : Option (CaptureGeometry S)
  needsFullRefresh : Bool

structure OutputCaptureBroker (B S : Type) where
  nextConsumerId : ℕ
  outputSerials : List (ℕ × ℕ)
  consumers : List (ℕ × CaptureConsumer B S)

variable {B S : Type}

def CaptureFrame.forceFullRefresh (frame : CaptureFrame B S) : CaptureFrame B S :=
  { frame with
    damage := [⟨0, 0, frame.geometry.width, frame.geometry.height⟩]
    fullRefresh := true }

namespace CaptureConsumer

def register (outputId queueDepth : ℕ) : CaptureConsumer B S where
  outputId := outputId
  queueLimit := queueDepth
  queue := []
  lastGeometry := none
  needsFullRefresh := true

def requestFullRefresh (consumer : CaptureConsumer B S) : CaptureConsumer B S :=
  { consumer with queue := [], needsFullRefresh := true }

def invalidate (consumer : CaptureConsumer B S) : CaptureConsumer B S :=
  { consumer with queue := [], lastGeometry := none, needsFullRefresh := true }

variable [BEq S] (consumer : CaptureConsumer B S)

def geometryChanged (geometry : CaptureGeometry S) : Bool := consumer.lastGeometry != some geometry

/-- Nothing changed for the consumer. -/
def skips (geometry : CaptureGeometry S) (damage : List Rectangle) : Bool :=
  damage = [] && !consumer.needsFullRefresh && !consumer.geometryChanged geometry

def queueFull : Bool := consumer.queueLimit ≤ consumer.queue.length

/-- A frame for one consumer: when its queue is full the oldest one goes. -/
def publish (frame : CaptureFrame B S) : CaptureConsumer B S :=
  if consumer.skips frame.geometry frame.damage then consumer
  else
    let queue := if consumer.queueFull then consumer.queue.tail else consumer.queue
    let frame :=
      if consumer.needsFullRefresh || consumer.geometryChanged frame.geometry ||
          consumer.queueFull then frame.forceFullRefresh
      else frame
    { consumer with
      queue := queue ++ [frame]
      needsFullRefresh := false
      lastGeometry := some frame.geometry }

theorem outputId_publish (frame : CaptureFrame B S) :
    (consumer.publish frame).outputId = consumer.outputId := by
  unfold publish
  split <;> rfl

end CaptureConsumer

namespace OutputCaptureBroker

def empty : OutputCaptureBroker B S where
  nextConsumerId := 1
  outputSerials := []
  consumers := []

variable (broker : OutputCaptureBroker B S)

def register (outputId queueDepth : ℕ) : Except CaptureError (OutputCaptureBroker B S × ℕ) :=
  if 1 ≤ queueDepth ∧ queueDepth ≤ maxCaptureQueueDepth then
    .ok ({ broker with
        nextConsumerId := saturatingAdd broker.nextConsumerId 1
        consumers := putKey broker.nextConsumerId (.register outputId queueDepth) broker.consumers },
      broker.nextConsumerId)
  else .error (.invalidQueueDepth queueDepth)

def remove (consumerId : ℕ) : OutputCaptureBroker B S :=
  { broker with consumers := removeKey consumerId broker.consumers }

/-- A consumer is set to another state. -/
def setConsumer (consumerId : ℕ) (consumer : CaptureConsumer B S) : OutputCaptureBroker B S :=
  { broker with consumers := putKey consumerId consumer broker.consumers }

/-- Every consumer changes. -/
def mapConsumers (f : CaptureConsumer B S → CaptureConsumer B S) : OutputCaptureBroker B S :=
  { broker with consumers := broker.consumers.map fun entry => (entry.1, f entry.2) }

def requestFullRefresh (consumerId : ℕ) : Except CaptureError (OutputCaptureBroker B S × ℕ) :=
  match getKey consumerId broker.consumers with
  | none => .error (.unknownConsumer consumerId)
  | some consumer =>
    .ok (broker.setConsumer consumerId consumer.requestFullRefresh, consumer.outputId)

def pollFrame (consumerId : ℕ) : OutputCaptureBroker B S × Option (CaptureFrame B S) :=
  match getKey consumerId broker.consumers with
  | none => (broker, none)
  | some consumer =>
    (broker.setConsumer consumerId { consumer with queue := consumer.queue.tail },
      consumer.queue.head?)

/-- The newest frame, for all that are queued. -/
def takeLatestFrame (consumerId : ℕ) : OutputCaptureBroker B S × Option (CaptureFrame B S) :=
  match getKey consumerId broker.consumers with
  | none => (broker, none)
  | some consumer =>
    (broker.setConsumer consumerId { consumer with queue := [] },
      consumer.queue.getLast?.map fun frame =>
        if 1 < consumer.queue.length then frame.forceFullRefresh else frame)

def invalidateOutput (outputId : ℕ) : OutputCaptureBroker B S :=
  { broker.mapConsumers fun consumer =>
      if consumer.outputId = outputId then consumer.invalidate else consumer with
    outputSerials := removeKey outputId broker.outputSerials }

def invalidateAll : OutputCaptureBroker B S :=
  { broker.mapConsumers CaptureConsumer.invalidate with outputSerials := [] }

variable [BEq S]

def hasPublishableConsumer (outputId : ℕ) (geometry : CaptureGeometry S) (damage : List Rectangle)
    : Bool :=
  broker.consumers.any fun entry =>
    entry.2.outputId = outputId && !entry.2.skips geometry damage

def publish (outputId : ℕ) (buffer : B) (geometry : CaptureGeometry S) (damage : List Rectangle)
    (capturedAt : ℕ) : OutputCaptureBroker B S × Option ℕ :=
  if broker.hasPublishableConsumer outputId geometry damage then
    let serial := saturatingAdd ((getKey outputId broker.outputSerials).getD 0) 1
    let frame : CaptureFrame B S :=
      { outputId, serial, capturedAt, geometry, buffer, damage, fullRefresh := false }
    ({ broker.mapConsumers fun consumer =>
        if consumer.outputId = outputId then consumer.publish frame else consumer with
        outputSerials := putKey outputId serial broker.outputSerials },
      some serial)
  else (broker, none)

end OutputCaptureBroker

end FocalDesk.Capture
