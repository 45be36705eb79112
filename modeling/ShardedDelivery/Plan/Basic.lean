import ShardedDelivery.Call

/-! # Delivery plans

A plan is all that remains to be done for one delivery, as a tree: it edits the books, logs,
counts rollbacks, reads flags and makes calls, and goes on by what it reads and is told.
`Plan.dispatch` is the recovery policy. -/

namespace ShardedDelivery

/-- A flag that a plan reads when it gets there. -/
inductive Query where
  | stale (m : Message)
  | disposable (m : Message)
  | active (s : Subscription)
deriving DecidableEq, Repr

/-- The answer that the books give. -/
def Query.holds : Query → Books → Bool
  | stale m, b => b.isStale m
  | disposable m, b => b.isDisposable m
  | active s, b => b.isActive s

/-- What remains to be done for one delivery. -/
inductive Plan where
  | finish (outcome : Outcome)
  | log (line : Line) (rest : Plan)
  | edit (change : Edit) (rest : Plan)
  | countRollback (rest : Plan)
  | check (q : Query) (rest : Bool → Plan)
  | call (c : Call) (rest : c.Reply → Plan)

namespace Plan

/-- Makes edits one after another. -/
def edits (changes : List Edit) (rest : Plan) : Plan := changes.foldr edit rest

/-- Takes the delivery back and counts that. -/
def rollback (d : Delivery) (rest : Plan) : Plan :=
  edits (Edit.rollback d.message d.subscription) (countRollback rest)

/-- Traces a point in the message's life. -/
def trace (kind : TraceKind) (m : Message) (rest : Plan) : Plan :=
  call (.trace kind m) fun _ => rest

/-- Counts a rate. -/
def count (metric : Metric) (rest : Plan) : Plan :=
  call (.count metric) fun _ => rest

/-- A message that cannot be delivered goes to the dead letter queue. Only queue messages do; a
topic message has had its chance. -/
def deadLetter (queue : String) (m : Message) : Plan :=
  if m.isTopic then
    log (.topicDiscarded m.id m.destination) (finish (.dropped .topicNoDeadLetter))
  else
    log (.moving m.id m.destination queue) <|
      call (.moveToDeadLetters m m.destination queue) fun
        | .ok () => trace .deadLettered m (count .deadLettered (finish .deadLettered))
        | .error e =>
            log (.moveFailed m.id m.destination e) (finish (.dropped .deadLetterFailed))

/-- A subscriber that cannot be reached: a durable one gets the message again later, any other
loses it, with a warning unless the message may be disposed of. -/
def recover (d : Delivery) : Plan :=
  if d.subscription.durable then
    call (.requeue d.message) fun _ => count .requeued (finish .requeued)
  else
    check (.disposable d.message) fun
      | true => finish (.dropped .disposable)
      | false =>
          log (.subscriberClosed d.message.id d.subscription.channel)
            (finish (.dropped .subscriberClosed))

/-- What follows a send, by its reply. -/
def afterSend (queue : String) (d : Delivery) : Except SendFailure Unit → Plan
  | .ok () => trace .dispatched d.message (count .sent (finish .delivered))
  | .error (.ruleViolation reason) =>
      log (.ruleViolated d.message.id reason) (rollback d (deadLetter queue d.message))
  | .error (.transient reason) =>
      log (.transientFailure d.message.id reason) (rollback d (recover d))
  | .error (.unexpected reason) =>
      log (.unexpectedFailure d.message.id d.subscription.channel (.unexpected reason))
        (finish .unhandled)

/-- The recovery policy: what is done with a delivery on which an earlier stage has or has not
failed. -/
def dispatch (queue : String) (d : Delivery) (failed : Bool) : Plan :=
  if failed then rollback d (deadLetter queue d.message)
  else
    check (.stale d.message) fun
      | true =>
          rollback d (trace .staleDiscarded d.message (finish (.dropped .stale)))
      | false =>
          check (.active d.subscription) fun
            | false => rollback d (recover d)
            | true => call (.send d) (afterSend queue d)

end Plan

end ShardedDelivery
