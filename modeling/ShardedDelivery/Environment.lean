import ShardedDelivery.Call

/-! # The environment of a handler

The transports, the services, the tracer and the metrics sink are given from outside as
functions on a state. They may do anything to the books and to a state of their own. -/

namespace ShardedDelivery

/-- What the callees see and may change: the books, and a state of their own. -/
structure Site (σ : Type) where
  books : Books
  outside : σ

/-- The behaviour of the callees. -/
structure Environment (σ : Type) where
  /-- A send starts. -/
  send : Delivery → Site σ → Attempt (Except SendFailure Unit) × Site σ
  /-- A waiting send is tried again; none if it waits on. -/
  resume : Delivery → Nat → Site σ → Option (Except Crash (Except SendFailure Unit) × Site σ)
  requeue : Message → Site σ → Except Crash Unit × Site σ
  moveToDeadLetters : Message → String → String → Site σ →
    Except Crash (Except MoveError Unit) × Site σ
  trace : TraceKind → Message → Site σ → Except Crash Unit × Site σ
  count : Metric → Site σ → Except Crash Unit × Site σ

namespace Environment

variable {σ : Type}

/-- Answers a call; only sends wait. -/
def answer (e : Environment σ) : (c : Call) → Site σ → Attempt c.Reply × Site σ
  | .send d, s => e.send d s
  | .requeue m, s => (e.requeue m s).map .ended id
  | .moveToDeadLetters m destination queue, s =>
      (e.moveToDeadLetters m destination queue s).map .ended id
  | .trace kind m, s => (e.trace kind m s).map .ended id
  | .count metric, s => (e.count metric s).map .ended id

/-- Answers a call that waited, if it can be answered now. -/
def answerLate (e : Environment σ) :
    (c : Call) → Nat → Site σ → Option (Except Crash c.Reply × Site σ)
  | .send d, mark, s => e.resume d mark s
  | _, _, _ => none

end Environment

/-- Where handlers work: the site, and the journal of all that has happened there. -/
structure Scene (σ : Type) extends Site σ where
  journal : List Entry := []

namespace Scene

variable {σ : Type}

/-- Adds an entry to the journal. -/
def note (s : Scene σ) (entry : Entry) : Scene σ := { s with journal := s.journal ++ [entry] }

/-- Logs a line. -/
def log (s : Scene σ) (line : Line) : Scene σ := s.note (.logged line)

/-- Changes the books. -/
def edit (s : Scene σ) (change : Edit) : Scene σ := { s with books := s.books.apply change }

/-- Puts a site in place of the present one. -/
def moveTo (s : Scene σ) (site : Site σ) : Scene σ := { s with toSite := site }

/-- Notes how a call ended, if it returned. -/
def noteEnd (s : Scene σ) (c : Call) : Except Crash c.Reply → Scene σ
  | .ok reply => s.note (.returned c (c.accepted reply))
  | .error _ => s

/-- Makes a call. -/
def call (s : Scene σ) (e : Environment σ) (c : Call) : Attempt c.Reply × Scene σ :=
  let s := s.note (.called c s.books)
  match e.answer c s.toSite with
  | (.ended result, site) => (.ended result, (s.moveTo site).noteEnd c result)
  | (.waiting mark, site) => (.waiting mark, s.moveTo site)

/-- Goes on with a call that waited; none if it waits on. -/
def callLate (s : Scene σ) (e : Environment σ) (c : Call) (mark : Nat) :
    Option (Except Crash c.Reply × Scene σ) :=
  (e.answerLate c mark s.toSite).map fun (result, site) =>
    (result, (s.moveTo site).noteEnd c result)

end Scene

end ShardedDelivery
