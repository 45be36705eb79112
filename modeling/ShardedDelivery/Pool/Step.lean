import ShardedDelivery.Pool.Basic

/-! # The steps of a pool

Every atomic step that a pool can take has a name, its `Action`. `Floor.act` takes one if it is
possible; the possible orders of actions are all the ways in which publishers and handlers can
interleave. -/

namespace ShardedDelivery

/-- A pool and the scene where its handlers work. -/
structure Floor (σ : Type) where
  pool : Pool
  scene : Scene σ

/-- An atomic step of a pool. -/
inductive Action where
  /-- A publisher comes with an event. -/
  | publish (slot : Slot)
  /-- A waiting publisher gets the lock. -/
  | acquire (ticket : Nat)
  /-- The publisher with the lock goes on. -/
  | proceed
  /-- A publisher gives up before its event is written. -/
  | cancel (ticket : Nat)
  /-- A handler goes on. -/
  | advance (ordinal : Nat)
  /-- A handler ends on the spot. -/
  | stop (ordinal : Nat)
  /-- Nothing is accepted or announced from now on. -/
  | close
  /-- All handlers have ended after that. -/
  | join
deriving DecidableEq, Repr

variable {σ : Type}

namespace Worker

/-- What a step of a handler leaves. -/
structure Advance (σ : Type) where
  worker : Worker
  ring : Ring
  scene : Scene σ
  report : Option Report := none

/-- Where a handler stands after a piece of a plan. -/
def follow (w : Worker) (sequence : Nat) (d : Delivery) (s : Scene σ) :
    Plan.Progress → Worker × Scene σ
  | .going plan => ({ w with stage := .dispatching sequence d plan }, s)
  | .ended (.waiting c mark rest) => ({ w with stage := .waiting sequence d c mark rest }, s)
  | .ended (.finished outcome) =>
      let (handler, report) := w.handler.report d outcome
      ({ w with handler, stage := .recorded sequence d report }, s)
  | .ended (.crashed crash) =>
      let (handler, report) := w.handler.report d .unhandled
      ({ w with handler, stage := .recorded sequence d report }, Handler.contain d crash s)

/-- The handler sees what it has claimed, and plans the delivery if it is its own. -/
def begin (w : Worker) (sequence : Nat) (slot : Slot) (s : Scene σ) : Worker × Scene σ :=
  let (handler, s) := w.handler.see sequence w.inbox.isEmpty s
  match handler.claim? slot with
  | none => ({ w with handler, stage := .idle }, s)
  | some d =>
      ({ w with
          handler := handler.take
          stage := .dispatching sequence d (Plan.dispatch handler.queue d slot.failed) }, s)

/-- A handler takes its next step. It waits while nothing is announced, and while a call of its
delivery waits; it ends when nothing more can be announced. -/
def advance (w : Worker) (e : Environment σ) (closed : Bool) (ring : Ring) (s : Scene σ) :
    Option (Advance σ) :=
  match w.stage with
  | .idle =>
      match w.inbox with
      | sequence :: inbox => some ⟨{ w with inbox, stage := .received sequence }, ring, s, none⟩
      | [] => if closed then some ⟨w.stop, ring, s, none⟩ else none
  | .received sequence =>
      let (slot, ring) := ring.claim sequence w.handler.owns
      some ⟨{ w with stage := .claimed sequence slot }, ring, s, none⟩
  | .claimed sequence slot =>
      some ⟨{ w with stage := .released sequence slot }, ring.release sequence, s, none⟩
  | .released sequence slot =>
      let (w, s) := w.begin sequence slot s
      some ⟨w, ring, s, none⟩
  | .dispatching sequence d plan =>
      let (progress, tally, s) := plan.step e w.handler.tally s
      let w : Worker := { w with handler := { w.handler with tally } }
      let (w, s) := w.follow sequence d s progress
      some ⟨w, ring, s, none⟩
  | .waiting sequence d c mark rest =>
      (s.callLate e c mark).map fun (result, s) =>
        let (w, s) := w.follow sequence d s (.ofResult rest result)
        ⟨w, ring, s, none⟩
  | .recorded _ _ report => some ⟨{ w with stage := .idle }, ring, s, some report⟩
  | .ended => none

end Worker

namespace Pool

/-- A publisher comes. It is turned away at once when events are no longer accepted. -/
def publish (p : Pool) (slot : Slot) : Pool :=
  if p.running then { p with tickets := p.tickets + 1, waiting := p.waiting ++ [(p.tickets, slot)] }
  else { p with tickets := p.tickets + 1, results := p.results ++ [(p.tickets, .error .shutdown)] }

/-- Whoever comes changes nothing but the list of those who wait, if events are accepted, and the
results. -/
theorem publish_eq (p : Pool) (slot : Slot) :
    ∃ waiting results, p.publish slot = { p with tickets := p.tickets + 1, waiting, results } ∧
      (p.running = false → waiting = p.waiting) := by
  unfold publish
  split
  · next hr => exact ⟨_, _, rfl, by simp [hr]⟩
  · exact ⟨_, _, rfl, fun _ => rfl⟩

/-- A waiting publisher gets the lock if it is free. -/
def acquire (p : Pool) (ticket : Nat) : Option Pool :=
  match p.holder, p.waiting.find? (·.1 = ticket) with
  | none, some (_, slot) => some { p with
      holder := some ⟨ticket, .writing slot⟩, waiting := p.waiting.filter (·.1 ≠ ticket) }
  | _, _ => none

/-- The publisher with the lock is done and gives it back. -/
def finish (p : Pool) (ticket : Nat) (result : Except PublishError Nat) : Pool :=
  { p with holder := none, results := p.results ++ [(ticket, result)] }

/-- The event is written under the next sequence, once its place is free. -/
def write (p : Pool) (ticket : Nat) (slot : Slot) : Option Pool :=
  (p.ring.write? p.next slot).map fun ring =>
    { p with ring, next := p.next + 1, holder := some ⟨ticket, .announcing p.next 0⟩ }

/-- A sequence is announced to the next handler, if there is room in its inbox. When that handler
is gone, the handlers that have not heard of the sequence give up its place and the pool stops
accepting events. -/
def announce (p : Pool) (s : Scene σ) (ticket sequence told : Nat) : Option (Pool × Scene σ) :=
  match p.workers[told]? with
  | none => some (p.finish ticket (.ok sequence), s)
  | some w =>
      let unannounced := p.workers.length - told
      if w.isGone then
        let ring := p.ring.abandon sequence (UInt64.ofNat unannounced)
        some ({ p with ring, running := false }.finish ticket (.error .shutdown),
          s.log (.handlerGone sequence unannounced))
      else if w.inbox.length < p.ring.capacity then
        some ({ p with
          workers := p.workers.set told (w.hear sequence)
          holder := some ⟨ticket, .announcing sequence (told + 1)⟩ }, s)
      else none

/-- The publisher with the lock goes on. -/
def proceed (p : Pool) (s : Scene σ) : Option (Pool × Scene σ) :=
  match p.holder with
  | none => none
  | some ⟨ticket, .writing slot⟩ => (p.write ticket slot).map (·, s)
  | some ⟨ticket, .announcing sequence told⟩ => p.announce s ticket sequence told

/-- A publisher gives up, if its event is not written yet. -/
def cancel (p : Pool) (ticket : Nat) : Option Pool :=
  match p.holder with
  | some ⟨holder, .writing _⟩ =>
      if holder = ticket then some { p with holder := none } else withdraw
  | _ => withdraw
where
  withdraw : Option Pool :=
    if p.waiting.any (·.1 = ticket) then
      some { p with waiting := p.waiting.filter (·.1 ≠ ticket) }
    else none

/-- A handler takes its next step. -/
def advance (p : Pool) (e : Environment σ) (s : Scene σ) (ordinal : Nat) :
    Option (Pool × Scene σ) := do
  let w ← p.workers[ordinal]?
  let next ← w.advance e p.closed p.ring s
  let reports := if p.reporting then p.reports ++ next.report.toList else p.reports
  return ({ p with workers := p.workers.set ordinal next.worker, ring := next.ring, reports },
    next.scene)

/-- A handler ends on the spot. -/
def stop (p : Pool) (ordinal : Nat) : Option Pool :=
  p.workers[ordinal]?.map fun w => { p with workers := p.workers.set ordinal w.stop }

/-- The pool closes, when no publisher is under way. -/
def close (p : Pool) : Option Pool :=
  if p.pending = [] then some { p with running := false, closed := true } else none

end Pool

/-- Takes a step, if it is possible. -/
def Floor.act (f : Floor σ) (e : Environment σ) : Action → Option (Floor σ)
  | .publish slot => some { f with pool := f.pool.publish slot }
  | .acquire ticket => (f.pool.acquire ticket).map ({ f with pool := · })
  | .proceed => (f.pool.proceed f.scene).map fun (pool, scene) => { pool, scene }
  | .cancel ticket => (f.pool.cancel ticket).map ({ f with pool := · })
  | .advance ordinal =>
      (f.pool.advance e f.scene ordinal).map fun (pool, scene) => { pool, scene }
  | .stop ordinal => (f.pool.stop ordinal).map ({ f with pool := · })
  | .close => f.pool.close.map ({ f with pool := · })
  | .join =>
      if f.pool.closed && f.pool.workers.all Worker.isGone then
        some { f with scene := f.scene.log .stopped }
      else none

end ShardedDelivery
