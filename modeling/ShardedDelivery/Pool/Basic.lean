import ShardedDelivery.Config
import ShardedDelivery.Handler
import ShardedDelivery.Ring

/-! # Pools

A pool is a ring with handlers that read it. Publishers take turns under one lock: the one that
holds it writes its event under the next sequence and announces that to every handler in order.
Each handler has an inbox of announced sequences and works through them one at a time. -/

namespace ShardedDelivery

/-- Where a handler stands with the sequence that it is working on. -/
inductive Stage where
  | idle
  | received (sequence : Nat)
  | claimed (sequence : Nat) (slot : Slot)
  | released (sequence : Nat) (slot : Slot)
  | dispatching (sequence : Nat) (d : Delivery) (plan : Plan)
  | waiting (sequence : Nat) (d : Delivery) (c : Call) (mark : Nat) (rest : c.Reply → Plan)
  | recorded (sequence : Nat) (d : Delivery) (report : Report)
  | ended

/-- A handler at work, with the sequences announced to it. -/
structure Worker where
  handler : Handler
  inbox : List Nat := []
  stage : Stage := .idle

/-- What the publisher that holds the lock has left to do. -/
inductive Publishing where
  | writing (slot : Slot)
  | announcing (sequence told : Nat)
deriving DecidableEq, Repr

/-- The publisher that holds the lock. -/
structure Publisher where
  ticket : Nat
  stage : Publishing
deriving DecidableEq, Repr

/-- A pool, with what has come out of it so far. -/
structure Pool where
  config : Config
  /-- Reports are kept. -/
  reporting : Bool
  /-- Events are accepted. -/
  running : Bool := true
  /-- Nothing more will be announced. -/
  closed : Bool := false
  /-- The next sequence. -/
  next : Nat := 0
  ring : Ring
  workers : List Worker
  /-- Publishers that wait for the lock, in the order in which they came. -/
  waiting : List (Nat × Slot) := []
  holder : Option Publisher := none
  /-- The number of publishers so far. -/
  tickets : Nat := 0
  /-- How publishers fared, in the order in which they finished. -/
  results : List (Nat × Except PublishError Nat) := []
  /-- The reports, in the order in which they came. -/
  reports : List Report := []

namespace Worker

/-- Has ended, and hears nothing any more. -/
def isGone (w : Worker) : Bool := match w.stage with
  | .ended => true
  | _ => false

/-- The delivery whose call waits. -/
def stalled? (w : Worker) : Option Delivery := match w.stage with
  | .waiting _ d _ _ _ => some d
  | _ => none

/-- Ends on the spot; what was announced to it stays unread. -/
def stop (w : Worker) : Worker := { w with inbox := [], stage := .ended }

/-- Hears of a sequence. -/
def hear (w : Worker) (sequence : Nat) : Worker := { w with inbox := w.inbox ++ [sequence] }

end Worker

namespace Pool

/-- A pool whose handlers are idle and whose ring is free. -/
def new (config : Config) (reporting : Bool) : Pool where
  config
  reporting
  ring := .new config.ringSize config.handlers
  workers := (List.range config.handlers.toNat).map fun ordinal =>
    { handler := .new ordinal config.handlers.toNat config.queue }

/-- The counters of each handler. -/
def tallies (p : Pool) : List Tally := p.workers.map (·.handler.tally)

/-- The counters of all handlers added up. -/
def tally (p : Pool) : Tally := .total p.tallies

/-- The deliveries whose calls wait. -/
def stalled (p : Pool) : List Delivery := p.workers.filterMap Worker.stalled?

/-- The publishers that have not finished, the one with the lock first. -/
def pending (p : Pool) : List Nat :=
  (p.holder.map Publisher.ticket).toList ++ p.waiting.map Prod.fst

end Pool

end ShardedDelivery
