import ShardedDelivery.Slot

/-! # The ring

Slots are reused in turn: sequence `s` goes to place `s` modulo the capacity. A place is written
when no reader holds it, and is then held by all readers until each has released it. The count
of holders is a 64-bit counter that wraps. What an operation does to the places is one lemma,
such as `place_release`. -/

namespace ShardedDelivery

/-- One place of the ring: its slot, and the readers that still hold it. -/
structure Place where
  slot : Slot := .empty
  pending : UInt64 := 0
deriving DecidableEq, Repr, Inhabited

/-- A ring of at least one place. -/
structure Ring where
  places : Array Place
  readers : UInt64
  size_pos : 0 < places.size

namespace Ring

/-- A ring of free places. It has at least one place and one reader. -/
def new (capacity readers : UInt64) : Ring where
  places := Array.replicate (max capacity.toNat 1) {}
  readers := if readers = 0 then 1 else readers
  size_pos := by simp only [Array.size_replicate]; omega

def capacity (r : Ring) : Nat := r.places.size

/-- Where a sequence goes. -/
def index (r : Ring) (sequence : Nat) : Fin r.places.size :=
  ⟨sequence % r.places.size, Nat.mod_lt _ r.size_pos⟩

/-- The place of a sequence. -/
def place (r : Ring) (sequence : Nat) : Place := r.places[r.index sequence]

/-- Changes the place of a sequence. -/
def update (r : Ring) (sequence : Nat) (p : Place) : Ring :=
  { r with places := r.places.set (r.index sequence) p, size_pos := by simpa using r.size_pos }

/-- Writes an event for a sequence; none while a reader holds the place. -/
def write? (r : Ring) (sequence : Nat) (slot : Slot) : Option Ring :=
  if (r.place sequence).pending = 0 then some (r.update sequence ⟨slot, r.readers⟩) else none

/-- Takes the event out if it is owned; otherwise takes nothing and leaves the place alone. -/
def claim (r : Ring) (sequence : Nat) (owns : Slot → Bool) : Slot × Ring :=
  let p := r.place sequence
  if owns p.slot then (p.slot, r.update sequence { p with slot := .empty }) else (.empty, r)

/-- One reader is done with the place. -/
def release (r : Ring) (sequence : Nat) : Ring :=
  let p := r.place sequence
  r.update sequence { p with pending := p.pending - 1 }

/-- Releases the place for readers that will never see the sequence. When nobody holds it any
more, the event is dropped. -/
def abandon (r : Ring) (sequence : Nat) (readers : UInt64) : Ring :=
  let p := r.place sequence
  if readers = 0 then r
  else if p.pending = readers then r.update sequence {}
  else r.update sequence { p with pending := p.pending - readers }

/-- Whether the slot of a sequence is empty. -/
def isEmptyAt (r : Ring) (sequence : Nat) : Bool := (r.place sequence).slot.isEmpty

@[simp] theorem capacity_update (r : Ring) (sequence : Nat) (p : Place) :
    (r.update sequence p).capacity = r.capacity := by
  simp [capacity, update]

@[simp] theorem readers_update (r : Ring) (sequence : Nat) (p : Place) :
    (r.update sequence p).readers = r.readers := rfl

theorem place_update (r : Ring) (s t : Nat) (p : Place) :
    (r.update s p).place t = if s % r.capacity = t % r.capacity then p else r.place t := by
  by_cases h : s % r.places.size = t % r.places.size <;>
    simp [place, update, index, capacity, Array.getElem_set, h]

@[simp] theorem place_update_self (r : Ring) (sequence : Nat) (p : Place) :
    (r.update sequence p).place sequence = p := by
  simp [place_update]

/-- Sequences that are equal modulo the capacity share a place. -/
theorem place_congr (r : Ring) {s t : Nat} (h : s % r.capacity = t % r.capacity) :
    r.place s = r.place t := by
  have : r.index s = r.index t := Fin.ext h
  simp only [place, this]

theorem place_write? {r r' : Ring} {s : Nat} {slot : Slot} (h : r.write? s slot = some r')
    (t : Nat) :
    r'.place t = if s % r.capacity = t % r.capacity then ⟨slot, r.readers⟩ else r.place t := by
  unfold write? at h
  split at h
  · rw [← Option.some.inj h, place_update]
  · contradiction

theorem capacity_write? {r r' : Ring} {s : Nat} {slot : Slot} (h : r.write? s slot = some r') :
    r'.capacity = r.capacity := by
  unfold write? at h
  split at h
  · rw [← Option.some.inj h, capacity_update]
  · contradiction

theorem readers_write? {r r' : Ring} {s : Nat} {slot : Slot} (h : r.write? s slot = some r') :
    r'.readers = r.readers := by
  unfold write? at h
  split at h
  · rw [← Option.some.inj h, readers_update]
  · contradiction

theorem write?_eq_none_iff {r : Ring} {s : Nat} {slot : Slot} :
    r.write? s slot = none ↔ (r.place s).pending ≠ 0 := by
  simp [write?]

theorem place_claim (r : Ring) (s t : Nat) (owns : Slot → Bool) :
    (r.claim s owns).2.place t =
      if s % r.capacity = t % r.capacity ∧ owns (r.place s).slot then
        { r.place t with slot := .empty }
      else r.place t := by
  by_cases ho : owns (r.place s).slot
  · by_cases hs : s % r.capacity = t % r.capacity
    · rw [r.place_congr hs] at ho ⊢
      simp [claim, ho, place_update, hs, r.place_congr hs]
    · simp [claim, ho, place_update, hs]
  · simp [claim, ho]

theorem claim_fst (r : Ring) (s : Nat) (owns : Slot → Bool) :
    (r.claim s owns).1 = if owns (r.place s).slot then (r.place s).slot else .empty := by
  unfold claim
  split <;> simp_all

theorem place_release (r : Ring) (s t : Nat) :
    (r.release s).place t =
      if s % r.capacity = t % r.capacity then
        { r.place t with pending := (r.place t).pending - 1 }
      else r.place t := by
  by_cases h : s % r.capacity = t % r.capacity
  · simp [release, place_update, h, r.place_congr h]
  · simp [release, place_update, h]

theorem place_abandon (r : Ring) (s t : Nat) (readers : UInt64) :
    (r.abandon s readers).place t =
      if s % r.capacity = t % r.capacity ∧ readers ≠ 0 then
        if (r.place t).pending = readers then {}
        else { r.place t with pending := (r.place t).pending - readers }
      else r.place t := by
  by_cases hr : readers = 0
  · simp [abandon, hr]
  · by_cases hs : s % r.capacity = t % r.capacity
    · simp only [abandon, hr, if_false, r.place_congr hs]
      split <;> simp [place_update, hs, hr]
    · simp only [abandon, hr, if_false]
      split <;> simp [place_update, hs]

@[simp] theorem capacity_claim (r : Ring) (s : Nat) (owns : Slot → Bool) :
    (r.claim s owns).2.capacity = r.capacity := by
  simp only [claim]
  split <;> simp

@[simp] theorem readers_claim (r : Ring) (s : Nat) (owns : Slot → Bool) :
    (r.claim s owns).2.readers = r.readers := by
  simp only [claim]
  split <;> simp

@[simp] theorem capacity_release (r : Ring) (s : Nat) : (r.release s).capacity = r.capacity := by
  simp [release]

@[simp] theorem readers_release (r : Ring) (s : Nat) : (r.release s).readers = r.readers := by
  simp [release]

@[simp] theorem capacity_abandon (r : Ring) (s : Nat) (readers : UInt64) :
    (r.abandon s readers).capacity = r.capacity := by
  simp only [abandon]
  split
  · rfl
  · split <;> simp

@[simp] theorem readers_abandon (r : Ring) (s : Nat) (readers : UInt64) :
    (r.abandon s readers).readers = r.readers := by
  simp only [abandon]
  split
  · rfl
  · split <;> simp

end Ring

end ShardedDelivery
