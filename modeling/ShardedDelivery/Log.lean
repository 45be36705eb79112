import ShardedDelivery.Outcome
import ShardedDelivery.Telemetry

/-! # The log

Every line that is ever logged, with what it says: a level, a message and named fields. The
wording stands here and nowhere else. -/

namespace ShardedDelivery

/-- How grave a line is. -/
inductive Level where
  | trace
  | debug
  | warn
  | error
deriving DecidableEq, Repr

def Level.name : Level → String
  | .trace => "TRACE"
  | .debug => "DEBUG"
  | .warn => "WARN"
  | .error => "ERROR"

/-- One line of the log. -/
inductive Line where
  | endOfBatch (ordinal sequence : Nat)
  | ruleViolated (id : MessageId) (reason : String)
  | transientFailure (id : MessageId) (reason : String)
  | unexpectedFailure (id : MessageId) (channel : ChannelId) (failure : SendFailure)
  | crashed (id : MessageId) (channel : ChannelId) (what : String)
  | subscriberClosed (id : MessageId) (channel : ChannelId)
  | topicDiscarded (id : MessageId) (destination : String)
  | moving (id : MessageId) (destination queue : String)
  | moveFailed (id : MessageId) (destination : String) (error : MoveError)
  | traced (kind : TraceKind) (id : MessageId) (destination : String)
  | started (handlers ringSize : UInt64) (queue : String)
  | handlerGone (sequence unannounced : Nat)
  | stopped
deriving DecidableEq, Repr

namespace Line

def level : Line → Level
  | endOfBatch .. | ruleViolated .. | transientFailure .. => .trace
  | traced .. | started .. | stopped => .debug
  | subscriberClosed .. | topicDiscarded .. | moving .. | handlerGone .. => .warn
  | unexpectedFailure .. | crashed .. | moveFailed .. => .error

def message : Line → String
  | endOfBatch .. => "end of batch"
  | ruleViolated .. => "delivery rule violated"
  | transientFailure .. => "transient delivery failure"
  | unexpectedFailure id .. => s!"unexpected error while delivering message {id}"
  | crashed id .. => s!"unexpected error while delivering message {id}"
  | subscriberClosed id .. => s!"cannot send message id={id} as subscriber is closed"
  | topicDiscarded id .. => s!"discarding topic message {id} as delivery failed"
  | moving id .. => s!"moving message {id} to dead letter queue due to send error"
  | moveFailed id .. => s!"error moving message {id} to dead letter queue"
  | traced .. => "message trace"
  | started .. => "delivery dispatcher started"
  | handlerGone .. => "delivery handler gone, dispatcher stopped"
  | stopped => "delivery dispatcher stopped"

def fields : Line → List (String × String)
  | endOfBatch ordinal sequence =>
      [("ordinal", toString ordinal), ("sequence", toString sequence)]
  | ruleViolated id reason => [("message_id", toString id), ("reason", reason)]
  | transientFailure id reason => [("message_id", toString id), ("reason", reason)]
  | unexpectedFailure id channel failure =>
      [("message_id", toString id), ("channel", toString channel), ("error", failure.text)]
  | crashed id channel what =>
      [("message_id", toString id), ("channel", toString channel), ("panic", what)]
  | subscriberClosed id channel => [("message_id", toString id), ("channel", toString channel)]
  | topicDiscarded id destination => [("message_id", toString id), ("destination", destination)]
  | moving id destination queue =>
      [("message_id", toString id), ("destination", destination), ("dead_letter_queue", queue)]
  | moveFailed id destination error =>
      [("message_id", toString id), ("destination", destination), ("error", error.text)]
  | traced kind id destination =>
      [("trace", kind.label), ("message_id", toString id), ("destination", destination)]
  | started handlers ringSize queue =>
      [("handler_count", toString handlers), ("ring_size", toString ringSize),
        ("dead_letter_queue", queue)]
  | handlerGone sequence unannounced =>
      [("sequence", toString sequence), ("unannounced", toString unannounced)]
  | stopped => []

/-- The line as it is written. -/
def text (l : Line) : String :=
  l.fields.foldl (fun line (name, value) => line ++ " " ++ name ++ "=" ++ value)
    (l.level.name ++ " " ++ l.message ++ " |")

end Line

end ShardedDelivery
