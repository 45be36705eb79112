import ShardedDelivery.Ring

/-! # The ring under concurrent work

An operation of the ring is not atomic. A write listens before it looks at the count of its place,
waits for a notification while somebody holds it, and then stores the event and the count one after
the other; who brings a count to zero has still to notify, and after an abandon to drop the event
first. One notifier serves all places. Here the operations are cut into their steps, and the steps
of one writer and any number of readers are taken in any order. -/

namespace ShardedDelivery

/-- Tells everybody who listens at the moment of a notification. -/
structure Notifier (ν τ : Type) where
  listen : ν → τ × ν
  notify : ν → ν
  isNotified : ν → τ → Bool

namespace Notifier

variable {ν τ : Type}

inductive Use where
  | listen
  | notify
deriving DecidableEq, Repr

def apply (o : Notifier ν τ) (n : ν) : Use → ν
  | .listen => (o.listen n).2
  | .notify => o.notify n

def applyAll (o : Notifier ν τ) (n : ν) (uses : List Use) : ν := uses.foldl o.apply n

theorem applyAll_append (o : Notifier ν τ) (n : ν) (uses later : List Use) :
    o.applyAll n (uses ++ later) = o.applyAll (o.applyAll n uses) later :=
  List.foldl_append

/-- A notification reaches those who have begun to listen before it, and nobody else. -/
def Reaches (o : Notifier ν τ) : Prop :=
  ∀ n uses, o.isNotified (o.applyAll (o.listen n).2 uses) (o.listen n).1 ↔ .notify ∈ uses

/-- Counts the notifications. Who listens remembers how many there were before. -/
def counting : Notifier Nat Nat where
  listen n := (n, n)
  notify n := n + 1
  isNotified n heard := heard < n

theorem applyAll_counting (n : Nat) (uses : List Use) :
    counting.applyAll n uses = n + uses.count .notify := by
  induction uses generalizing n with
  | nil => rfl
  | cons use uses ih =>
      rw [applyAll, List.foldl_cons, ← applyAll, ih]
      cases use with
      | listen => simp [apply, counting]
      | notify =>
          rw [List.count_cons_self]
          exact Nat.succ_add_eq_add_succ n _

theorem reaches_counting : counting.Reaches := by
  intro n uses
  rw [applyAll_counting]
  simp [counting]

end Notifier

namespace Ring

/-- Stores an event. -/
def fill (r : Ring) (sequence : Nat) (slot : Slot) : Ring :=
  r.update sequence { r.place sequence with slot }

/-- All readers hold the place from now on. -/
def raise (r : Ring) (sequence : Nat) : Ring :=
  r.update sequence { r.place sequence with pending := r.readers }

/-- So many readers hold the place no more. -/
def lower (r : Ring) (sequence : Nat) (readers : UInt64) : Ring :=
  r.update sequence
    { r.place sequence with pending := (r.place sequence).pending - readers }

/-- Drops the event. -/
def clear (r : Ring) (sequence : Nat) : Ring := r.fill sequence .empty

theorem update_update (r : Ring) (s : Nat) (p q : Place) :
    (r.update s p).update s q = r.update s q := by
  simp [update, index]

theorem write?_eq (r : Ring) (s : Nat) (slot : Slot) :
    r.write? s slot =
      if (r.place s).pending = 0 then some ((r.fill s slot).raise s) else none := by
  simp [write?, fill, raise, update_update]

theorem release_eq (r : Ring) (s : Nat) : r.release s = r.lower s 1 := rfl

theorem abandon_eq (r : Ring) (s : Nat) (readers : UInt64) :
    r.abandon s readers =
      if readers = 0 then r
      else if (r.place s).pending = readers then (r.lower s readers).clear s
      else r.lower s readers := by
  by_cases hk : readers = 0
  · simp [abandon, hk]
  · by_cases hp : (r.place s).pending = readers
    · simp [abandon, clear, fill, lower, update_update, hk, hp]
    · simp [abandon, lower, hk, hp]

theorem place_lower (r : Ring) (s t : Nat) (readers : UInt64) :
    (r.lower s readers).place t =
      if s % r.capacity = t % r.capacity then
        { r.place t with pending := (r.place t).pending - readers }
      else r.place t := by
  by_cases h : s % r.capacity = t % r.capacity
  · simp [lower, place_update, h, r.place_congr h]
  · simp [lower, place_update, h]

theorem place_fill (r : Ring) (s t : Nat) (slot : Slot) :
    (r.fill s slot).place t =
      if s % r.capacity = t % r.capacity then { r.place t with slot } else r.place t := by
  by_cases h : s % r.capacity = t % r.capacity
  · simp [fill, place_update, h, r.place_congr h]
  · simp [fill, place_update, h]

@[simp] theorem capacity_fill (r : Ring) (s : Nat) (slot : Slot) :
    (r.fill s slot).capacity = r.capacity := by
  simp [fill]

@[simp] theorem capacity_clear (r : Ring) (s : Nat) : (r.clear s).capacity = r.capacity :=
  r.capacity_fill s .empty

@[simp] theorem capacity_lower (r : Ring) (s : Nat) (readers : UInt64) :
    (r.lower s readers).capacity = r.capacity := by
  simp [lower]

end Ring

/-- Where a writer is in a write. -/
inductive Writer (τ : Type) where
  | away
  /-- It is about to listen. -/
  | arriving (sequence : Nat) (slot : Slot)
  /-- It is about to look at the count. -/
  | listening (sequence : Nat) (slot : Slot) (since : τ)
  /-- It waits for a notification. -/
  | suspended (sequence : Nat) (slot : Slot) (since : τ)
  /-- It is about to store the event. -/
  | storing (sequence : Nat) (slot : Slot)
  /-- It is about to store the count. -/
  | raising (sequence : Nat)

/-- What a reader has still to do for a count that it has brought to zero. -/
inductive Reader where
  | away
  /-- It is about to drop the event. -/
  | clearing (sequence : Nat)
  /-- It is about to notify. -/
  | notifying (sequence : Nat)
deriving DecidableEq, Repr

/-- A ring that one writer and some readers work on at the same time. -/
structure SharedRing (ν τ : Type) where
  ring : Ring
  notifier : ν
  writer : Writer τ := .away
  readers : List Reader

/-- A step of the writer or of a reader. -/
inductive Access where
  /-- The writer begins a write. -/
  | write (sequence : Nat) (slot : Slot)
  /-- The writer goes on. -/
  | proceed
  /-- The write is dropped while it waits. -/
  | withdraw
  /-- A reader looks at an event. -/
  | claim (reader : Nat) (sequence : Nat) (owns : Slot → Bool)
  /-- A reader counts itself out. -/
  | release (reader : Nat) (sequence : Nat)
  /-- A reader counts several out. -/
  | abandon (reader : Nat) (sequence : Nat) (readers : UInt64)
  /-- A reader goes on with what it has still to do. -/
  | finish (reader : Nat)

namespace SharedRing

variable {ν τ : Type}

/-- A ring at which nobody works yet. -/
def opening (ring : Ring) (notifier : ν) (readers : Nat) : SharedRing ν τ :=
  { ring, notifier, readers := List.replicate readers .away }

/-- The writer takes its next step. It waits until it is notified, and then begins anew. -/
def proceed (o : Notifier ν τ) (x : SharedRing ν τ) : Option (SharedRing ν τ) :=
  match x.writer with
  | .away => none
  | .arriving s slot =>
      let (since, notifier) := o.listen x.notifier
      some { x with notifier, writer := .listening s slot since }
  | .listening s slot since =>
      if (x.ring.place s).pending = 0 then some { x with writer := .storing s slot }
      else some { x with writer := .suspended s slot since }
  | .suspended s slot since =>
      if o.isNotified x.notifier since then some { x with writer := .arriving s slot } else none
  | .storing s slot => some { x with ring := x.ring.fill s slot, writer := .raising s }
  | .raising s => some { x with ring := x.ring.raise s, writer := .away }

/-- A reader counts some out. If it brings the count to zero, it has a duty from then on. -/
def lower (x : SharedRing ν τ) (reader sequence : Nat) (readers : UInt64) (duty : Reader) :
    SharedRing ν τ :=
  { x with
    ring := x.ring.lower sequence readers
    readers :=
      if (x.ring.place sequence).pending = readers then x.readers.set reader duty else x.readers }

/-- Takes a step, if it is possible. -/
def act (o : Notifier ν τ) (x : SharedRing ν τ) : Access → Option (SharedRing ν τ)
  | .write s slot =>
      match x.writer with
      | .away => some { x with writer := .arriving s slot }
      | _ => none
  | .proceed => x.proceed o
  | .withdraw =>
      match x.writer with
      | .suspended .. => some { x with writer := .away }
      | _ => none
  | .claim i s owns =>
      if x.readers[i]? = some .away then some { x with ring := (x.ring.claim s owns).2 } else none
  | .release i s =>
      if x.readers[i]? = some .away then some (x.lower i s 1 (.notifying s)) else none
  | .abandon i s k =>
      if x.readers[i]? = some .away then
        some (if k = 0 then x else x.lower i s k (.clearing s))
      else none
  | .finish i =>
      match x.readers[i]? with
      | some (.clearing s) => some { x with
          ring := x.ring.clear s, readers := x.readers.set i (.notifying s) }
      | some (.notifying _) => some { x with
          notifier := o.notify x.notifier, readers := x.readers.set i .away }
      | _ => none

/-- Takes steps one after another, if they are possible. -/
def actAll (o : Notifier ν τ) (x : SharedRing ν τ) (accesses : List Access) :
    Option (SharedRing ν τ) :=
  accesses.foldlM (act o) x

end SharedRing

end ShardedDelivery
