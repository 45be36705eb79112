import ShardedDelivery.Proofs.Conservation
import ShardedDelivery.Ring

/-! # Slots in parts

A slot keeps a subscription, a message and a content, and each of them may be there without the
others. Here all that is done with a slot is done part by part: on its own, in a ring, and by a
handler, which looks at the subscription before it looks for the rest. On slots that hold a whole
delivery or nothing it comes to the same. -/

namespace ShardedDelivery

/-! ## Slots -/

/-- A slot whose parts are kept apart. -/
structure LooseSlot where
  subscription : Option Subscription := none
  message : Option Message := none
  content : Option Content := none
  failed : Bool := false
deriving DecidableEq, Repr

/-- The parts of a slot. -/
def Slot.loosen (s : Slot) : LooseSlot where
  subscription := s.delivery.map (·.subscription)
  message := s.delivery.map (·.message)
  content := s.delivery.map (·.content)
  failed := s.failed

namespace LooseSlot

/-- A slot without any part. -/
def empty : LooseSlot := {}

/-- A slot for a pairing. -/
def new (d : Delivery) : LooseSlot where
  subscription := some d.subscription
  message := some d.message
  content := some d.content

/-- Overwrites a slot with a pairing. -/
def fill (x : LooseSlot) (d : Delivery) (failed : Bool) : LooseSlot :=
  { x with
    subscription := some d.subscription
    message := some d.message
    content := some d.content
    failed }

def setFailed (x : LooseSlot) (failed : Bool) : LooseSlot := { x with failed }

def clear (x : LooseSlot) : LooseSlot :=
  { x with subscription := none, message := none, content := none, failed := false }

/-- The contents, and what is left of the slot. -/
def take (x : LooseSlot) : LooseSlot × LooseSlot := (x, empty)

/-- Holds no part, and the flag is not set. -/
def isEmpty (x : LooseSlot) : Bool :=
  x.subscription.isNone && x.message.isNone && x.content.isNone && !x.failed

/-- The pairing that the parts make, if none of them is missing. -/
def pairing? (x : LooseSlot) : Option Delivery := do
  return ⟨← x.subscription, ← x.message, ← x.content⟩

/-- All parts are there, or none is. -/
def Whole (x : LooseSlot) : Prop :=
  x.subscription.isSome = x.message.isSome ∧ x.message.isSome = x.content.isSome

end LooseSlot

namespace Slot

@[simp] theorem loosen_empty : Slot.empty.loosen = .empty := rfl

theorem loosen_holding (d : Delivery) : (holding d false).loosen = .new d := rfl

theorem loosen_fill (x : LooseSlot) (d : Delivery) (failed : Bool) :
    (holding d failed).loosen = x.fill d failed := rfl

theorem loosen_setFailed (s : Slot) (failed : Bool) :
    (s.setFailed failed).loosen = s.loosen.setFailed failed := rfl

theorem isEmpty_loosen (s : Slot) : s.loosen.isEmpty = s.isEmpty := by
  rcases s with ⟨_ | d, failed⟩ <;> simp [LooseSlot.isEmpty, isEmpty, loosen]

@[simp] theorem pairing?_loosen (s : Slot) : s.loosen.pairing? = s.delivery := by
  rcases s with ⟨_ | d, failed⟩ <;> rfl

end Slot

namespace LooseSlot

/-- Slots whose parts belong together are those that hold a delivery or nothing. -/
theorem whole_iff {x : LooseSlot} : x.Whole ↔ ∃ s : Slot, s.loosen = x := by
  constructor
  · obtain ⟨subscription, message, content, failed⟩ := x
    rintro ⟨hmessage, hcontent⟩
    match subscription, message, content, hmessage, hcontent with
    | none, none, none, _, _ => exact ⟨⟨none, failed⟩, rfl⟩
    | some subscription, some message, some content, _, _ =>
        exact ⟨⟨some ⟨subscription, message, content⟩, failed⟩, rfl⟩
  · rintro ⟨s, rfl⟩
    simp [Whole, Slot.loosen]

/-- Whether a slot is empty shows in its subscription and its flag. -/
theorem Whole.isEmpty_iff {x : LooseSlot} (h : x.Whole) :
    x.isEmpty ↔ x.subscription = none ∧ x.failed = false := by
  obtain ⟨s, rfl⟩ := whole_iff.mp h
  rw [Slot.isEmpty_loosen]
  simp [Slot.isEmpty, Slot.loosen]

end LooseSlot

/-! ## Rings -/

/-- A place of a ring of loose slots. -/
structure LoosePlace where
  slot : LooseSlot := .empty
  pending : UInt64 := 0
deriving DecidableEq, Repr, Inhabited

/-- A ring of loose slots. -/
structure LooseRing where
  places : Array LoosePlace
  readers : UInt64
  size_pos : 0 < places.size

/-- A place with its slot in parts. -/
def Place.loosen (p : Place) : LoosePlace := ⟨p.slot.loosen, p.pending⟩

/-- A ring with its slots in parts. -/
def Ring.loosen (r : Ring) : LooseRing where
  places := r.places.map Place.loosen
  readers := r.readers
  size_pos := by simpa using r.size_pos

namespace LooseRing

theorem size_pos_replicate (capacity : UInt64) :
    0 < (Array.replicate (max capacity.toNat 1) ({} : LoosePlace)).size := by
  simp only [Array.size_replicate]
  omega

/-- A ring of free places. -/
def new (capacity readers : UInt64) : LooseRing where
  places := Array.replicate (max capacity.toNat 1) {}
  readers := if readers = 0 then 1 else readers
  size_pos := size_pos_replicate capacity

def capacity (r : LooseRing) : Nat := r.places.size

/-- Where a sequence goes. -/
def index (r : LooseRing) (sequence : Nat) : Fin r.places.size :=
  ⟨sequence % r.places.size, Nat.mod_lt _ r.size_pos⟩

def place (r : LooseRing) (sequence : Nat) : LoosePlace := r.places[r.index sequence]

def update (r : LooseRing) (sequence : Nat) (p : LoosePlace) : LooseRing :=
  { r with places := r.places.set (r.index sequence) p, size_pos := by simpa using r.size_pos }

/-- Writes an event for a sequence; none while a reader holds the place. -/
def write? (r : LooseRing) (sequence : Nat) (event : LooseSlot) : Option LooseRing :=
  if (r.place sequence).pending = 0 then some (r.update sequence ⟨event, r.readers⟩) else none

/-- Takes the event out if it is owned; otherwise gives an empty one and leaves the place alone. -/
def claim (r : LooseRing) (sequence : Nat) (owns : LooseSlot → Bool) : LooseSlot × LooseRing :=
  let p := r.place sequence
  if owns p.slot then (p.slot.take.1, r.update sequence { p with slot := p.slot.take.2 })
  else (.empty, r)

/-- One reader is done with the place. -/
def release (r : LooseRing) (sequence : Nat) : LooseRing :=
  let p := r.place sequence
  r.update sequence { p with pending := p.pending - 1 }

/-- Releases the place for readers that will never see the sequence, and clears its slot when
nobody holds it any more. -/
def abandon (r : LooseRing) (sequence : Nat) (readers : UInt64) : LooseRing :=
  let p := r.place sequence
  if readers = 0 then r
  else if p.pending = readers then
    r.update sequence { p with slot := p.slot.clear, pending := p.pending - readers }
  else r.update sequence { p with pending := p.pending - readers }

theorem place_update (r : LooseRing) (s t : Nat) (p : LoosePlace) :
    (r.update s p).place t = if s % r.capacity = t % r.capacity then p else r.place t := by
  by_cases h : s % r.places.size = t % r.places.size <;>
    simp [place, update, index, capacity, Array.getElem_set, h]

theorem place_congr (r : LooseRing) {s t : Nat} (h : s % r.capacity = t % r.capacity) :
    r.place s = r.place t := by
  have hindex : r.index s = r.index t := Fin.ext h
  simp only [place, hindex]

/-- A claim empties the place of its sequence, if it takes anything. -/
theorem place_claim (r : LooseRing) (s t : Nat) (owns : LooseSlot → Bool) :
    (r.claim s owns).2.place t =
      if owns (r.place s).slot ∧ s % r.capacity = t % r.capacity then
        { r.place t with slot := .empty }
      else r.place t := by
  by_cases howns : owns (r.place s).slot
  · by_cases hs : s % r.capacity = t % r.capacity
    · rw [r.place_congr hs] at howns ⊢
      simp [claim, howns, place_update, hs, r.place_congr hs, LooseSlot.take]
    · simp [claim, howns, place_update, hs]
  · simp [claim, howns]

end LooseRing

namespace Ring

variable (r : Ring) (s : Nat)

theorem loosen_new (capacity readers : UInt64) :
    (new capacity readers).loosen = .new capacity readers := by
  simp [loosen, new, LooseRing.new, Place.loosen]

theorem place_loosen : r.loosen.place s = (r.place s).loosen := by
  simp [LooseRing.place, LooseRing.index, loosen, place, index]

theorem loosen_update (p : Place) : (r.update s p).loosen = r.loosen.update s p.loosen := by
  simp [loosen, update, LooseRing.update, LooseRing.index, index, Array.map_set]

theorem write?_loosen (slot : Slot) :
    r.loosen.write? s slot.loosen = (r.write? s slot).map loosen := by
  rw [LooseRing.write?, write?, place_loosen, Place.loosen]
  split
  · rw [Option.map_some, loosen_update]
    rfl
  · rfl

theorem claim_loosen (owns : LooseSlot → Bool) :
    r.loosen.claim s owns = (r.claim s fun slot => owns slot.loosen).map Slot.loosen loosen := by
  simp only [LooseRing.claim, claim, place_loosen, Place.loosen]
  split
  · rw [Prod.map, loosen_update]
    rfl
  · rfl

theorem release_loosen : r.loosen.release s = (r.release s).loosen := by
  simp only [LooseRing.release, release, place_loosen, loosen_update]
  rfl

theorem abandon_loosen (readers : UInt64) :
    r.loosen.abandon s readers = (r.abandon s readers).loosen := by
  simp only [LooseRing.abandon, abandon, place_loosen]
  split
  · rfl
  · have hpending : (r.place s).loosen.pending = (r.place s).pending := rfl
    rw [hpending]
    split
    · next h =>
        rw [loosen_update, h, UInt64.sub_self]
        rfl
    · rw [loosen_update]
      rfl

end Ring

/-! ## Handlers -/

variable {σ : Type}

/-- Takes so many steps of a plan, unless it ends before. -/
def Plan.runFor (e : Environment σ) : Nat → Plan → Tally → Scene σ → Progress × Tally × Scene σ
  | 0, plan, t, s => (.going plan, t, s)
  | steps + 1, plan, t, s =>
      match plan.step e t s with
      | (.ended ending, t, s) => (.ended ending, t, s)
      | (.going rest, t, s) => rest.runFor e steps t s

/-- Whether the slot has a subscription whose channel falls to this handler. -/
def Handler.ownsLoose (h : Handler) (slot : LooseSlot) : Bool :=
  slot.subscription.any fun s => s.channel.shard h.count = h.ordinal

/-- Dispatches a delivery, and gives it up if it has not ended after so many steps. -/
def Handler.deliverWithin (h : Handler) (e : Environment σ) (patience : Option Nat) (d : Delivery)
    (failed : Bool) (s : Scene σ) : Handler × Scene σ × Handled :=
  match patience with
  | none => h.deliver e d failed s
  | some steps =>
      match (Plan.dispatch h.queue d failed).runFor e steps h.tally s with
      | (.going _, t, s) => ({ h with tally := t }, s, .waiting)
      | (.ended _, _, _) => h.deliver e d failed s

/-- A handler that is about to be shown a slot. -/
structure Encounter (σ : Type) where
  handler : Handler
  callees : Environment σ
  sequence : Nat
  last : Bool
  scene : Scene σ
  /-- After how many steps the delivery is given up, if it ever is. -/
  patience : Option Nat := none

/-- A handler, a slot and the scene after the handler was shown the slot. -/
structure LooseTurn (σ : Type) where
  handler : Handler
  slot : LooseSlot
  scene : Scene σ
  result : Handled

/-- A turn with its slot in parts. -/
def Turn.loosen (turn : Turn σ) : LooseTurn σ :=
  ⟨turn.handler, turn.slot.loosen, turn.scene, turn.result⟩

/-- Shows the handler a slot. If it owns the slot, it counts that and takes the contents, and only
then looks whether there is a subscription and a message among them; without one of these it stops.
Without content, it delivers an empty one. -/
def Encounter.turn (x : Encounter σ) (slot : LooseSlot) : LooseTurn σ :=
  match x.handler.see x.sequence x.last x.scene with
  | (h, s) =>
      if h.ownsLoose slot then
        match slot.take with
        | (⟨some subscription, some message, content, failed⟩, left) =>
            match h.take.deliverWithin x.callees x.patience
              ⟨subscription, message, content.getD {}⟩ failed s with
            | (h, s, result) => ⟨h, left, s, result⟩
        | (_, left) => ⟨h.take, left, s, .foreign⟩
      else ⟨h, slot, s, .foreign⟩

namespace Handler

variable {h : Handler} {e : Environment σ} {d : Delivery} {failed : Bool} {s : Scene σ}

theorem ownsLoose_loosen (h : Handler) (slot : Slot) : h.ownsLoose slot.loosen = h.owns slot := by
  rcases slot with ⟨_ | d, failed⟩ <;> rfl

/-- A delivery counts no event as owned, and ends in a report unless its send waits. -/
theorem deliver_spec (h : Handler) (e : Environment σ) (d : Delivery) (failed : Bool)
    (s : Scene σ) :
    (h.deliver e d failed s).1.tally.owned = h.tally.owned ∧
      ((∃ outcome, (h.deliver e d failed s).2.2 =
          .reported ⟨d.message.id, d.subscription.channel, outcome⟩) ∨
        (h.deliver e d failed s).2.2 = .waiting ∧
          ∃ mark, (e.send d s.toSite).1 = .waiting mark) := by
  have hgoes := Plan.goes_dispatch e h.queue d failed h.tally s
  rcases hrun : (Plan.dispatch h.queue d failed).run e h.tally s with ⟨ending, t, s'⟩
  rw [hrun] at hgoes
  have hbills := hgoes.bills
  cases ending with
  | finished outcome =>
      have howned : t.owned = h.tally.owned := by
        rw [show t = _ from hbills]
        split <;> rfl
      simp [deliver, hrun, report, howned]
  | crashed crash =>
      have howned : t.owned = h.tally.owned := by
        rcases hbills with rfl | rfl <;> rfl
      simp [deliver, hrun, report, howned]
  | waiting c mark rest =>
      obtain ⟨site, hsend, -⟩ := hgoes.handOff
      obtain rfl : t = h.tally := hbills
      simp [deliver, hrun, hsend]

theorem owned_runFor (e : Environment σ) (steps : Nat) (plan : Plan) (t : Tally) (s : Scene σ) :
    (plan.runFor e steps t s).2.1.owned = t.owned := by
  induction steps generalizing plan t s with
  | zero => rfl
  | succ steps ih =>
      have hstep : (plan.step e t s).2.1.owned = t.owned := by cases plan <;> rfl
      rcases hs : plan.step e t s with ⟨ending | rest, t', s'⟩ <;> rw [hs] at hstep
      · simpa only [Plan.runFor, hs] using hstep
      · simpa only [Plan.runFor, hs] using (ih rest t' s').trans hstep

/-- So it is with one that may be given up. -/
theorem deliverWithin_spec (h : Handler) (e : Environment σ) (patience : Option Nat)
    (d : Delivery) (failed : Bool) (s : Scene σ) :
    (h.deliverWithin e patience d failed s).1.tally.owned = h.tally.owned ∧
      ((∃ outcome, (h.deliverWithin e patience d failed s).2.2 =
          .reported ⟨d.message.id, d.subscription.channel, outcome⟩) ∨
        (h.deliverWithin e patience d failed s).2.2 = .waiting ∧
          (patience.isSome ∨ ∃ mark, (e.send d s.toSite).1 = .waiting mark)) := by
  have hdeliver := h.deliver_spec e d failed s
  cases patience with
  | none => exact ⟨hdeliver.1, hdeliver.2.imp_right fun hw => ⟨hw.1, .inr hw.2⟩⟩
  | some steps =>
      have howned := owned_runFor e steps (Plan.dispatch h.queue d failed) h.tally s
      rcases hrun : (Plan.dispatch h.queue d failed).runFor e steps h.tally s with
        ⟨ending | rest, t, s'⟩
      · have hended : h.deliverWithin e (some steps) d failed s = h.deliver e d failed s := by
          simp only [deliverWithin, hrun]
        rw [hended]
        exact ⟨hdeliver.1, hdeliver.2.imp_right fun hw => ⟨hw.1, .inr hw.2⟩⟩
      · rw [hrun] at howned
        have hgiven : h.deliverWithin e (some steps) d failed s =
            ({ h with tally := t }, s', .waiting) := by
          simp only [deliverWithin, hrun]
        rw [hgiven]
        exact ⟨howned, .inr ⟨rfl, .inl rfl⟩⟩

end Handler

namespace Encounter

variable {x : Encounter σ} {slot : Slot} {d : Delivery}

/-- A slot that the handler does not own is left as it is. -/
theorem turn_of_foreign {slot : LooseSlot} (h : ¬ x.handler.ownsLoose slot) :
    x.turn slot = ⟨(x.handler.see x.sequence x.last x.scene).1, slot,
      (x.handler.see x.sequence x.last x.scene).2, .foreign⟩ := by
  have hseen : (x.handler.see x.sequence x.last x.scene).1.ownsLoose slot = false := by
    exact Bool.eq_false_iff.mpr h
  simp [turn, hseen]

/-- A slot that the handler owns is left empty, whether or not a part is missing. -/
theorem slot_turn (x : Encounter σ) (slot : LooseSlot) :
    (x.turn slot).slot = if x.handler.ownsLoose slot then .empty else slot := by
  split
  · next h =>
      have hseen : (x.handler.see x.sequence x.last x.scene).1.ownsLoose slot = true := h
      simp only [turn, hseen, if_true, LooseSlot.take]
      split <;> simp_all
  · next h => rw [turn_of_foreign h]

/-- A slot that holds a delivery of the handler's. -/
theorem turn_of_claim (h : x.handler.claim? slot = some d) :
    x.turn slot.loosen =
      match (x.handler.see x.sequence x.last x.scene).1.take.deliverWithin x.callees x.patience d
        slot.failed (x.handler.see x.sequence x.last x.scene).2 with
      | (h, s, result) => ⟨h, .empty, s, result⟩ := by
  obtain ⟨hd, hserves⟩ := Handler.claim?_eq_some_iff.mp h
  obtain ⟨delivery, failed⟩ := slot
  obtain rfl : delivery = some d := hd
  have hseen : (x.handler.see x.sequence x.last x.scene).1.ownsLoose
      (Slot.loosen ⟨some d, failed⟩) = true := hserves
  simp only [turn, hseen, if_true]
  rfl

/-- A slot that the handler owns is emptied, and its delivery ends in a report, unless it is given
up or its send waits. -/
structure Serves (x : Encounter σ) (d : Delivery) (turn : LooseTurn σ) : Prop where
  emptied : turn.slot = .empty
  counted : turn.handler.tally.owned = x.handler.tally.owned + 1
  reported : (∃ outcome, turn.result =
      .reported ⟨d.message.id, d.subscription.channel, outcome⟩) ∨
    turn.result = .waiting ∧
      (x.patience.isSome ∨ ∃ mark, (x.callees.send d x.scene.toSite).1 = .waiting mark)

theorem serves_turn (h : x.handler.claim? slot = some d) : x.Serves d (x.turn slot.loosen) := by
  have hspec := (x.handler.see x.sequence x.last x.scene).1.take.deliverWithin_spec x.callees
    x.patience d slot.failed (x.handler.see x.sequence x.last x.scene).2
  have hsite : (x.handler.see x.sequence x.last x.scene).2.toSite = x.scene.toSite := by
    rw [Handler.see]
    split <;> rfl
  rw [hsite] at hspec
  rw [turn_of_claim h]
  exact ⟨rfl, hspec.1, hspec.2⟩

/-- On a slot that holds a delivery or nothing, a handler that is not given up does the same as if
the slot were one. -/
theorem turn_loosen (hpatience : x.patience = none) (slot : Slot) :
    x.turn slot.loosen =
      (x.handler.handle x.callees slot x.sequence x.last x.scene).loosen := by
  cases hclaim : x.handler.claim? slot with
  | none =>
      have hforeign : ¬ x.handler.ownsLoose slot.loosen := by
        rw [Handler.ownsLoose_loosen, Handler.owns_iff, hclaim]
        simp
      rw [turn_of_foreign hforeign, Handler.handle_of_foreign hclaim]
      rfl
  | some d =>
      have hseen : (x.handler.see x.sequence x.last x.scene).1.claim? slot = some d := hclaim
      rw [turn_of_claim hclaim, hpatience]
      simp only [Handler.handle, hseen]
      rfl

end Encounter

end ShardedDelivery
