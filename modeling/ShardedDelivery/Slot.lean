import ShardedDelivery.Message
import ShardedDelivery.Subscription

/-! # Events and slots

A delivery pairs a subscription with a message and its content. A slot holds at most one
delivery, and a flag that says an earlier stage already failed on it. -/

namespace ShardedDelivery

/-- One message for one subscription. -/
structure Delivery where
  subscription : Subscription
  message : Message
  content : Content
deriving DecidableEq, Repr, Inhabited

/-- A reusable place for one event. -/
structure Slot where
  delivery : Option Delivery := none
  failed : Bool := false
deriving DecidableEq, Repr

namespace Slot

/-- A slot that holds nothing. -/
def empty : Slot := {}

instance : Inhabited Slot := ⟨empty⟩

/-- Holds neither a delivery nor the flag. -/
def isEmpty (s : Slot) : Bool := s.delivery.isNone && !s.failed

/-- A slot filled with a delivery. -/
def holding (d : Delivery) (failed : Bool) : Slot := ⟨some d, failed⟩

def setFailed (s : Slot) (failed : Bool) : Slot := { s with failed }

/-- The contents, and what is left of the slot. -/
def take (s : Slot) : Slot × Slot := (s, empty)

theorem isEmpty_iff {s : Slot} : s.isEmpty ↔ s = empty := by
  obtain ⟨d, f⟩ := s
  cases d <;> cases f <;> simp [isEmpty, empty]

end Slot

end ShardedDelivery
