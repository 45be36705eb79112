import ShardedDelivery.Books
import ShardedDelivery.Log
import ShardedDelivery.Slot

/-! # Calls to the outside

A handler acts on the outside by five calls. A call ends with a reply or crashes, and a send may
wait. The journal notes every call with the books as the callee found them, every call that
returned, and every line logged, in the order in which they happen. -/

namespace ShardedDelivery

/-- A call of the outside. -/
inductive Call where
  | send (d : Delivery)
  | requeue (m : Message)
  | moveToDeadLetters (m : Message) (destination queue : String)
  | trace (kind : TraceKind) (m : Message)
  | count (metric : Metric)
deriving DecidableEq, Repr

namespace Call

/-- What a call is answered with when it returns. -/
abbrev Reply : Call → Type
  | send _ => Except SendFailure Unit
  | requeue _ => Unit
  | moveToDeadLetters .. => Except MoveError Unit
  | trace .. => Unit
  | count _ => Unit

/-- Whether a reply says that the callee did what it was asked. -/
def accepted : (c : Call) → c.Reply → Bool
  | send _, .error _ => false
  | moveToDeadLetters .., .error _ => false
  | _, _ => true

end Call

/-- What a callee leaves behind when it breaks off instead of returning. -/
inductive Crash where
  | saying (message : String)
  | speechless
deriving DecidableEq, Repr

def Crash.text : Crash → String
  | .saying message => message
  | .speechless => "non-string panic payload"

/-- A call that has ended, or one that waits under a mark of the callee's choice. -/
inductive Attempt (α : Type) where
  | ended (result : Except Crash α)
  | waiting (mark : Nat)

/-- One entry of the journal. -/
inductive Entry where
  | called (c : Call) (found : Books)
  | returned (c : Call) (accepted : Bool)
  | logged (line : Line)

namespace Entry

/-- The line that this entry adds to the log when traces go to the log and nothing listens to
the metrics. -/
def line? : Entry → Option Line
  | called (.trace kind m) _ => some (.traced kind m.id m.destination)
  | logged line => some line
  | _ => none

end Entry

end ShardedDelivery
