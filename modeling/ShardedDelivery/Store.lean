import ShardedDelivery.Outcome

/-! # The store

Keeps requeued messages and dead letters in memory, in the order in which they come. -/

namespace ShardedDelivery

/-- A message that was moved to a dead letter queue. -/
structure DeadLetter where
  message : MessageId
  destination : String
  queue : String
  movedAt : UInt64
deriving DecidableEq, Repr, Inhabited

/-- Where undeliverable messages go unless another queue is named. -/
def DeadLetter.defaultQueue : String := "DeadLetterChannel"

/-- Requeued messages, dead letters, and whether moves are refused. -/
structure Store where
  requeued : List Message := []
  deadLetters : List DeadLetter := []
  refusing : Bool := false
deriving DecidableEq, Repr, Inhabited

namespace Store

def requeue (s : Store) (m : Message) : Store := { s with requeued := s.requeued ++ [m] }

/-- The requeued messages, and the store without them. -/
def takeRequeued (s : Store) : List Message × Store := (s.requeued, { s with requeued := [] })

def requeuedIds (s : Store) : List MessageId := s.requeued.map Message.id

/-- Moves a message to a dead letter queue at the given time. -/
def moveToDeadLetters (s : Store) (m : Message) (destination queue : String) (now : UInt64) :
    Except MoveError Unit × Store :=
  if s.refusing then (.error ⟨m.id, queue, "store rejected move"⟩, s)
  else (.ok (), { s with deadLetters := s.deadLetters ++ [⟨m.id, destination, queue, now⟩] })

/-- Lets moves fail from now on, or succeed again. -/
def setRefusing (s : Store) (refusing : Bool) : Store := { s with refusing }

/-- The dead letters that were on the way to a destination. -/
def deadLettersFor (s : Store) (destination : String) : List DeadLetter :=
  s.deadLetters.filter (·.destination = destination)

end Store

end ShardedDelivery
