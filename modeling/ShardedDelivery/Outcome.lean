import ShardedDelivery.Channel.Text
import ShardedDelivery.Message

/-! # Failures and outcomes

Why a send, a move or a publish fails, how a delivery ends, and the text of each. -/

namespace ShardedDelivery

/-- Why a send failed, as the transport says. -/
inductive SendFailure where
  | ruleViolation (reason : String)
  | transient (reason : String)
  | unexpected (reason : String)
deriving DecidableEq, Repr

def SendFailure.text : SendFailure → String
  | .ruleViolation reason => "delivery rule violated: " ++ reason
  | .transient reason => "transient delivery failure: " ++ reason
  | .unexpected reason => "unexpected delivery failure: " ++ reason

/-- A message that could not be moved to the dead letter queue. -/
structure MoveError where
  message : MessageId
  queue : String
  reason : String
deriving DecidableEq, Repr

def MoveError.text (e : MoveError) : String :=
  s!"failed to move message {e.message} to {e.queue}: {e.reason}"

/-- Why an event is not published. -/
inductive PublishError where
  | shutdown
deriving DecidableEq, Repr

def PublishError.text : PublishError → String
  | .shutdown => "delivery pool is shut down"

/-- Why a message is given up. -/
inductive DropReason where
  | stale
  | topicNoDeadLetter
  | subscriberClosed
  | disposable
  | deadLetterFailed
deriving DecidableEq, Repr

namespace DropReason

def text : DropReason → String
  | .stale => "stale message discarded"
  | .topicNoDeadLetter => "topic message discarded after send error"
  | .subscriberClosed => "subscriber closed"
  | .disposable => "subscriber closed, message disposable"
  | .deadLetterFailed => "dead-letter move failed"

/-- Every reason, in the order of precedence of the texts. -/
def all : List DropReason :=
  [.stale, .topicNoDeadLetter, .subscriberClosed, .disposable, .deadLetterFailed]

end DropReason

/-- How a delivery ends. -/
inductive Outcome where
  | delivered
  | requeued
  | deadLettered
  | dropped (reason : DropReason)
  | unhandled
deriving DecidableEq, Repr

/-- What a handler says of an event that it owned. -/
structure Report where
  message : MessageId
  channel : ChannelId
  outcome : Outcome
deriving DecidableEq, Repr

end ShardedDelivery
