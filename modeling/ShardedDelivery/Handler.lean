import ShardedDelivery.Plan.Run

/-! # Handlers

A handler sees every event and acts on those whose channel falls to its ordinal, so a channel is
always served by one handler. Whatever happens in a delivery that it owns stays inside: the slot
is emptied before anything is tried, and a crash ends in a report like any other. Only when a
handler lets go of a delivery that it has dealt with, a crash is not contained: then the outcome
has been counted, and its report is lost. -/

namespace ShardedDelivery

/-- One of `count` handlers that share the channels, with its dead letter queue and counters. -/
structure Handler where
  ordinal : Nat
  count : Nat
  queue : String
  tally : Tally := {}
  count_pos : 0 < count

/-- What a handler makes of an event that it is shown. -/
inductive Handled where
  | foreign
  | reported (report : Report)
  | waiting
deriving DecidableEq, Repr

/-- The report that the handler makes, if it comes to one. -/
def Handled.report? : Handled → Option Report
  | reported report => some report
  | _ => none

/-- What comes of an event in the end. -/
inductive Upshot where
  | foreign
  | reported (report : Report)
  /-- The report was made, and its outcome counted, but it never comes out. -/
  | lost (report : Report)
  | waiting
deriving DecidableEq, Repr

/-- The handler lets go of the delivery. A part of it that nobody else holds comes to its end then,
and the transport of a subscription may crash at that: this crash is not contained. -/
def Handled.letGo (crashes : Bool) : Handled → Upshot
  | foreign => .foreign
  | reported report => if crashes then .lost report else .reported report
  | waiting => .waiting

namespace Upshot

/-- The report that comes out. -/
def report? : Upshot → Option Report
  | reported report => some report
  | foreign | lost _ | waiting => none

/-- The report that is lost. -/
def lost? : Upshot → Option Report
  | lost report => some report
  | foreign | reported _ | waiting => none

/-- The report that was made, whether it comes out or is lost. -/
def made? : Upshot → Option Report
  | reported report | lost report => some report
  | foreign | waiting => none

theorem made?_of_not_lost {u : Upshot} (h : u.lost? = none) : u.made? = u.report? := by
  cases u with
  | lost report => cases h
  | _ => rfl

end Upshot

namespace Handled

variable (crashes : Bool) (result : Handled)

@[simp] theorem made?_letGo : (result.letGo crashes).made? = result.report? := by
  cases result <;> cases crashes <;> rfl

end Handled

/-- A handler, a slot and the scene after the handler was shown the slot, before it lets go of what
was in it. -/
structure Turn (σ : Type) where
  handler : Handler
  slot : Slot
  scene : Scene σ
  result : Handled

namespace Handler

variable {σ : Type}

/-- A handler that has seen nothing yet. -/
def new (ordinal count : Nat) (queue : String) : Handler where
  ordinal
  count := max count 1
  queue
  count_pos := by omega

/-- Whether the delivery's channel falls to this handler. -/
def serves (h : Handler) (d : Delivery) : Bool := d.subscription.channel.shard h.count = h.ordinal

/-- Whether the slot holds a delivery that this handler serves. -/
def owns (h : Handler) (slot : Slot) : Bool := slot.delivery.any h.serves

/-- The delivery that this handler takes from the slot, if it owns one. -/
def claim? (h : Handler) (slot : Slot) : Option Delivery := slot.delivery.filter h.serves

/-- Counts an event, and marks the end of a batch. -/
def see (h : Handler) (sequence : Nat) (last : Bool) (s : Scene σ) : Handler × Scene σ :=
  ({ h with tally := h.tally.countSeen },
    if last then s.log (.endOfBatch h.ordinal sequence) else s)

/-- Counts an event as owned. -/
def take (h : Handler) : Handler := { h with tally := h.tally.countOwned }

/-- Counts a finished delivery and reports it. -/
def report (h : Handler) (d : Delivery) (outcome : Outcome) : Handler × Report :=
  ({ h with tally := h.tally.countOutcome outcome },
    ⟨d.message.id, d.subscription.channel, outcome⟩)

/-- A crash is logged, and leaves the delivery unhandled. -/
def contain (d : Delivery) (crash : Crash) (s : Scene σ) : Scene σ :=
  s.log (.crashed d.message.id d.subscription.channel crash.text)

/-- Dispatches a delivery that the handler has taken, counts the outcome and makes the report. -/
def deliver (h : Handler) (e : Environment σ) (d : Delivery) (failed : Bool) (s : Scene σ) :
    Handler × Scene σ × Handled :=
  match (Plan.dispatch h.queue d failed).run e h.tally s with
  | (ending, tally, s) =>
      let h := { h with tally }
      match ending with
      | .finished outcome => ((h.report d outcome).1, s, .reported (h.report d outcome).2)
      | .crashed crash =>
          ((h.report d .unhandled).1, contain d crash s, .reported (h.report d .unhandled).2)
      | .waiting .. => (h, s, .waiting)

/-- Shows the handler a slot. A slot that it does not own is left as it is. -/
def handle (h : Handler) (e : Environment σ) (slot : Slot) (sequence : Nat) (last : Bool)
    (s : Scene σ) : Turn σ :=
  match h.see sequence last s with
  | (h, s) =>
      match h.claim? slot with
      | none => ⟨h, slot, s, .foreign⟩
      | some d =>
          match h.take.deliver e d slot.failed s with
          | (h, s, result) => ⟨h, .empty, s, result⟩

end Handler

end ShardedDelivery
