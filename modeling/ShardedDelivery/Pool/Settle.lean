import ShardedDelivery.Pool.Step

/-! # Letting a pool settle

One way to run a pool: publishers and handlers take turns, and each side goes on as long as it
can. An event is therefore announced to all handlers, or given up, before any of them looks at it.
It stops when all of them wait for something outside, or when it has taken as many steps as it was
given. -/

namespace ShardedDelivery

/-- Those who take turns. -/
inductive Side where
  | publishers
  | handlers
deriving DecidableEq, Repr

/-- The side that is next. -/
def Side.other : Side → Side
  | publishers => handlers
  | handlers => publishers

namespace Floor

variable {σ : Type}

/-- A handler's next step. When letting go of the delivery that it has just dealt with is fatal,
that is its end. -/
def urge (f : Floor σ) (fatal : Delivery → Site σ → Bool) (ordinal : Nat) : Action :=
  match f.pool.workers[ordinal]?.map Worker.stage with
  | some (.recorded _ d _) => if fatal d f.scene.toSite then .stop ordinal else .advance ordinal
  | _ => .advance ordinal

/-- The actions that a side tries, the preferred ones first. The publisher with the lock goes
before those that wait for it, and these in the order in which they came. -/
def candidates (f : Floor σ) (fatal : Delivery → Site σ → Bool) : Side → List Action
  | .publishers => .proceed :: f.pool.waiting.head?.toList.map (.acquire ·.1)
  | .handlers => (List.range f.pool.workers.length).map (f.urge fatal)

/-- The first candidate of a side that is possible. -/
def next? (f : Floor σ) (e : Environment σ) (fatal : Delivery → Site σ → Bool) (side : Side) :
    Option (Floor σ) :=
  (f.candidates fatal side).findSome? (f.act e ·)

/-- Takes up to so many steps, this side first. -/
def settleWithin (e : Environment σ) (fatal : Delivery → Site σ → Bool) :
    Nat → Side → Floor σ → Floor σ
  | 0, _, f => f
  | steps + 1, side, f =>
      match f.next? e fatal side with
      | some f => settleWithin e fatal steps side f
      | none =>
          match f.next? e fatal side.other with
          | some f => settleWithin e fatal steps side.other f
          | none => f

/-- The steps that a pool is given: forty for each handler, and for the publishers, with every event
under way, and forty for each sequence that a handler has before it. -/
def budget (f : Floor σ) : Nat :=
  let perSequence := 40 * (f.pool.workers.length + 1)
  let inboxes := f.pool.workers.foldl (fun n w => n + w.inbox.length + 1) 0
  (f.pool.pending.length + 1) * perSequence + 40 * inboxes

/-- Lets the pool go on until all wait for something outside or its steps are used up. -/
def settle (f : Floor σ) (e : Environment σ) (fatal : Delivery → Site σ → Bool) : Floor σ :=
  settleWithin e fatal f.budget .publishers f

end Floor

end ShardedDelivery
