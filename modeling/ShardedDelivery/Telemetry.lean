/-! # Traces and metrics

What a handler tells the tracer and the metrics sink, and the names used for it. -/

namespace ShardedDelivery

/-- A point in a message's life that is traced. -/
inductive TraceKind where
  | dispatched
  | staleDiscarded
  | deadLettered
deriving DecidableEq, Repr

namespace TraceKind

def label : TraceKind → String
  | .dispatched => "dispatched_to_protocol"
  | .staleDiscarded => "discard_stale_message"
  | .deadLettered => "moved_to_dead_letter"

def all : List TraceKind := [.dispatched, .staleDiscarded, .deadLettered]

end TraceKind

/-- A rate that is counted. -/
inductive Metric where
  | sent
  | requeued
  | deadLettered
deriving DecidableEq, Repr

namespace Metric

def name : Metric → String
  | .sent => "delivery.message.sent"
  | .requeued => "delivery.message.requeued"
  | .deadLettered => "delivery.message.dead_lettered"

def all : List Metric := [.sent, .requeued, .deadLettered]

end Metric

end ShardedDelivery
