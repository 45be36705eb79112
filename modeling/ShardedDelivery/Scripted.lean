import ShardedDelivery.Environment
import ShardedDelivery.Store

/-! # Scripted callees

An environment to rehearse with. The sends of a subscription follow a script of cues and may wait
for a permit; the services keep what they are given in a store; every callee can be made to fail. -/

namespace ShardedDelivery.Scripted

/-- How a scripted send ends. -/
inductive Ending where
  | succeeds
  | fails (failure : SendFailure)
  | crashes (crash : Crash)
deriving DecidableEq, Repr

/-- What one send does: it may wait for a permit, then changes flags, then ends. -/
structure Cue where
  waits : Bool := false
  marksStale : Bool := false
  setsDisposable : Option Bool := none
  deactivates : Bool := false
  ending : Ending := .succeeds
deriving DecidableEq, Repr, Inhabited

/-- The script of a subscription, the sends so far, and the permits that sends may use up. The
handler that lets go of a fragile subscription after a send does not survive it. -/
structure Part where
  cues : List Cue := []
  sends : Nat := 0
  permits : Nat := 0
  fragile : Bool := false
deriving DecidableEq, Repr, Inhabited

namespace Part

/-- The cue of the `n`-th send: the last one is repeated, and without any a send succeeds. -/
def cue (p : Part) (n : Nat) : Cue := p.cues[min n (p.cues.length - 1)]?.getD {}

end Part

/-- How a callee misbehaves. -/
inductive Fault where
  | sound
  | crashing
  | refusing (reason : String)
deriving DecidableEq, Repr, Inhabited

/-- A crash of a faulty callee, if it has one. -/
def Fault.crash? (f : Fault) (name : String) : Except Crash Unit :=
  if f = .crashing then .error (.saying (name ++ " broken")) else .ok ()

/-- The state of all scripted callees. -/
structure Cast where
  parts : Table Subscription Part := {}
  store : Store := {}
  requeueFault : Fault := .sound
  deadLetterFault : Fault := .sound
  tracerFault : Fault := .sound
  metricsFault : Fault := .sound

namespace Cast

def part (c : Cast) (s : Subscription) : Part := c.parts.get s

/-- Adds permits to a subscription. -/
def permit (c : Cast) (s : Subscription) (n : Nat) : Cast :=
  { c with parts := c.parts.modify s fun p => { p with permits := p.permits + n } }

/-- Keeps permits of a subscription back for the deliveries that wait for them already, and tells
how many. A permit goes to whoever has waited for it, before a newcomer. -/
def reserve (c : Cast) (s : Subscription) (stalled : List Delivery) : Nat × Cast :=
  let promised := min (c.part s).permits (stalled.countP (·.subscription = s))
  (promised,
    { c with parts := c.parts.modify s fun p => { p with permits := p.permits - promised } })

/-- Adds permits to every subscription. -/
def permitAll (c : Cast) (n : Nat) : Cast :=
  { c with parts := ⟨c.parts.entries.map fun (s, p) => (s, { p with permits := p.permits + n })⟩ }

end Cast

/-- The changes that a cue makes to the books. -/
def Cue.edits (cue : Cue) (d : Delivery) : List Edit :=
  (if cue.marksStale then [.setStale d.message true] else []) ++
    (cue.setsDisposable.map (.setDisposable d.message ·)).toList ++
    (if cue.deactivates then [.setActive d.subscription false] else [])

/-- The answer of a send that has its permit. -/
def Cue.result (cue : Cue) : Except Crash (Except SendFailure Unit) :=
  match cue.ending with
  | .succeeds => .ok (.ok ())
  | .fails failure => .ok (.error failure)
  | .crashes crash => .error crash

/-- Plays a cue, once any permit that it needs has been used up. -/
def play (cue : Cue) (d : Delivery) (s : Site Cast) :
    Except Crash (Except SendFailure Unit) × Site Cast :=
  (cue.result, { s with books := s.books.applyAll (cue.edits d) })

/-- Uses up a permit, if there is one. -/
def usePermit? (d : Delivery) (s : Site Cast) : Option (Site Cast) :=
  if (s.outside.part d.subscription).permits = 0 then none
  else
    let parts := s.outside.parts.modify d.subscription fun p => { p with permits := p.permits - 1 }
    some { s with outside := { s.outside with parts } }

/-- A send that waited is tried again. Its mark is its place in the script. -/
def resume (d : Delivery) (mark : Nat) (s : Site Cast) :
    Option (Except Crash (Except SendFailure Unit) × Site Cast) :=
  (usePermit? d s).map (play ((s.outside.part d.subscription).cue mark) d)

/-- A send takes the next cue of its subscription's script. -/
def send (d : Delivery) (s : Site Cast) : Attempt (Except SendFailure Unit) × Site Cast :=
  let part := s.outside.part d.subscription
  let parts := s.outside.parts.set d.subscription { part with sends := part.sends + 1 }
  let s := { s with outside := { s.outside with parts } }
  let cue := part.cue part.sends
  if cue.waits then
    match resume d part.sends s with
    | some (result, s) => (.ended result, s)
    | none => (.waiting part.sends, s)
  else
    let (result, s) := play cue d s
    (.ended result, s)

/-- Requeues in the store. -/
def requeue (m : Message) (s : Site Cast) : Except Crash Unit × Site Cast :=
  match s.outside.requeueFault.crash? "requeue" with
  | .error crash => (.error crash, s)
  | .ok () => (.ok (), { s with outside := { s.outside with store := s.outside.store.requeue m } })

/-- Moves to the dead letters of the store, which never tell the time. -/
def moveToDeadLetters (m : Message) (destination queue : String) (s : Site Cast) :
    Except Crash (Except MoveError Unit) × Site Cast :=
  match s.outside.deadLetterFault with
  | .crashing => (.error (.saying "dead_letter broken"), s)
  | .refusing reason => (.ok (.error ⟨m.id, queue, reason⟩), s)
  | .sound =>
      let (result, store) := s.outside.store.moveToDeadLetters m destination queue 0
      (.ok result, { s with outside := { s.outside with store } })

/-- The scripted callees. With `listening`, tracer and metrics sink are scripted as well, and may
be faulty; without it nothing that they do can fail. -/
def environment (listening : Bool) : Environment Cast where
  send := send
  resume := resume
  requeue := requeue
  moveToDeadLetters := moveToDeadLetters
  trace _ _ s := (if listening then s.outside.tracerFault.crash? "tracer" else .ok (), s)
  count _ s := (if listening then s.outside.metricsFault.crash? "metrics" else .ok (), s)

/-- Whether letting go of the delivery ends the handler: its subscription is fragile and a send
was started on it. -/
def fatal (d : Delivery) (s : Site Cast) : Bool :=
  let part := s.outside.part d.subscription
  part.fragile && part.sends ≠ 0

end ShardedDelivery.Scripted
