import ShardedDelivery.Outcome

/-! # Tallies

The counters of one handler, or of several added up. They are 64-bit counters that wrap. -/

namespace ShardedDelivery

/-- Events seen and owned, rollbacks, and deliveries by outcome. -/
structure Tally where
  seen : UInt64 := 0
  owned : UInt64 := 0
  delivered : UInt64 := 0
  rollbacks : UInt64 := 0
  requeued : UInt64 := 0
  deadLettered : UInt64 := 0
  dropped : UInt64 := 0
  unhandled : UInt64 := 0
deriving DecidableEq, Repr, Inhabited

namespace Tally

/-- Counter by counter. -/
def add (a b : Tally) : Tally where
  seen := a.seen + b.seen
  owned := a.owned + b.owned
  delivered := a.delivered + b.delivered
  rollbacks := a.rollbacks + b.rollbacks
  requeued := a.requeued + b.requeued
  deadLettered := a.deadLettered + b.deadLettered
  dropped := a.dropped + b.dropped
  unhandled := a.unhandled + b.unhandled

instance : Add Tally := ⟨add⟩

instance : Zero Tally := ⟨{}⟩

/-- All tallies added up. -/
def total (tallies : List Tally) : Tally := tallies.foldl add 0

def countSeen (t : Tally) : Tally := { t with seen := t.seen + 1 }

def countOwned (t : Tally) : Tally := { t with owned := t.owned + 1 }

def countRollback (t : Tally) : Tally := { t with rollbacks := t.rollbacks + 1 }

/-- Counts one finished delivery under its outcome. -/
def countOutcome (t : Tally) : Outcome → Tally
  | .delivered => { t with delivered := t.delivered + 1 }
  | .requeued => { t with requeued := t.requeued + 1 }
  | .deadLettered => { t with deadLettered := t.deadLettered + 1 }
  | .dropped _ => { t with dropped := t.dropped + 1 }
  | .unhandled => { t with unhandled := t.unhandled + 1 }

/-- The counters in the order of the fields. -/
def toList (t : Tally) : List UInt64 :=
  [t.seen, t.owned, t.delivered, t.rollbacks, t.requeued, t.deadLettered, t.dropped, t.unhandled]

end Tally

end ShardedDelivery
