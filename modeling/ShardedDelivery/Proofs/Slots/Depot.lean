import Mathlib.Algebra.BigOperators.Fin
import Mathlib.Algebra.Order.BigOperators.Group.Multiset
import Mathlib.Tactic.Abel
import ShardedDelivery.Proofs.Slots.Loose

/-! # Slots that are passed around

Any number of slots and rings, on which anybody does whatever can be done with slots, in any
order. Parts never come apart, and pairings are moved, but not copied: there are no more of one
than were made. -/

namespace ShardedDelivery

open Function (update)

/-! ## What is held -/

/-- What is put into a list takes the place of what was there. -/
theorem sum_map_set {α M : Type} [AddCommMonoid M] (f : α → M) {l : List α} {i : Nat}
    (h : i < l.length) (a : α) :
    ((l.set i a).map f).sum + f l[i] = (l.map f).sum + f a := by
  induction l generalizing i with
  | nil => contradiction
  | cons b l ih =>
      cases i with
      | zero =>
          simp only [List.set_cons_zero, List.map_cons, List.sum_cons, List.getElem_cons_zero]
          abel
      | succ i =>
          have hrest := ih (Nat.lt_of_succ_lt_succ h)
          simp only [List.set_cons_succ, List.map_cons, List.sum_cons, List.getElem_cons_succ,
            add_assoc, hrest]

theorem sum_update {α M : Type} [AddCommMonoid M] (f : α → M) {n : Nat} (g : Fin n → α)
    (i : Fin n) (a : α) :
    ∑ j, f (update g i a j) + f (g i) = ∑ j, f (g j) + f a := by
  have hcomp : (fun j => f (update g i a j)) = update (fun j => f (g j)) i (f a) :=
    Function.comp_update f g i a
  rw [hcomp, Finset.sum_update_of_mem (Finset.mem_univ i),
    Finset.sum_eq_add_sum_sdiff_singleton_of_mem (Finset.mem_univ i) fun j => f (g j)]
  abel

/-- The pairing in a slot. -/
def LooseSlot.held (x : LooseSlot) : Multiset Delivery := x.pairing?.toList

/-- The pairings in a ring. -/
def LooseRing.held (r : LooseRing) : Multiset Delivery := (r.places.toList.map (·.slot.held)).sum

namespace LooseSlot

variable (x : LooseSlot) (d : Delivery) (failed : Bool)

@[simp] theorem held_empty : empty.held = 0 := rfl

@[simp] theorem held_new : (new d).held = {d} := rfl

@[simp] theorem held_fill : (x.fill d failed).held = {d} := rfl

@[simp] theorem held_setFailed : (x.setFailed failed).held = x.held := rfl

@[simp] theorem held_clear : x.clear.held = 0 := rfl

end LooseSlot

namespace LooseRing

variable (ring : LooseRing) (s : Nat)

theorem held_update (p : LoosePlace) :
    (ring.update s p).held + (ring.place s).slot.held = ring.held + p.slot.held := by
  have h := sum_map_set (fun p : LoosePlace => p.slot.held) (l := ring.places.toList)
    (i := ring.index s) (by simp) p
  simpa [held, update, place] using h

/-- What is claimed was in the ring and no longer is. -/
theorem held_claim (owns : LooseSlot → Bool) :
    (ring.claim s owns).2.held + (ring.claim s owns).1.held = ring.held := by
  simp only [claim]
  split
  · have h := ring.held_update s { ring.place s with slot := .empty }
    rwa [LooseSlot.held_empty, add_zero] at h
  · exact add_zero _

theorem held_release : (ring.release s).held = ring.held :=
  add_right_cancel (ring.held_update s _)

theorem held_abandon (readers : UInt64) :
    (ring.abandon s readers).held +
        (if readers ≠ 0 ∧ (ring.place s).pending = readers then (ring.place s).slot.held else 0) =
      ring.held := by
  by_cases hreaders : readers = 0
  · simp [abandon, hreaders]
  · by_cases hpending : (ring.place s).pending = readers
    · have h := ring.held_update s { ring.place s with
        slot := (ring.place s).slot.clear, pending := (ring.place s).pending - readers }
      rw [LooseSlot.held_clear, add_zero] at h
      simpa [abandon, hreaders, hpending] using h
    · simp only [abandon, hreaders, hpending, if_false, and_false, add_zero]
      exact add_right_cancel (ring.held_update s _)

end LooseRing

/-! ## What is done with slots -/

/-- Slots that somebody has in hand, and rings of slots. -/
structure Depot (n k : Nat) where
  slots : Fin n → LooseSlot
  rings : Fin k → LooseRing

/-- What can be done with slots, by their numbers, and with rings. -/
inductive Depot.Op (σ : Type) (n k : Nat) where
  | new (i : Fin n) (d : Delivery)
  | default (i : Fin n)
  | fill (i : Fin n) (d : Delivery) (failed : Bool)
  | setFailed (i : Fin n) (failed : Bool)
  | clear (i : Fin n)
  /-- The contents of one slot are put into another, or back. -/
  | take (source target : Fin n)
  | write (r : Fin k) (sequence : Nat) (source : Fin n)
  | claim (r : Fin k) (sequence : Nat) (owns : LooseSlot → Bool) (target : Fin n)
  | release (r : Fin k) (sequence : Nat)
  | abandon (r : Fin k) (sequence : Nat) (readers : UInt64)
  /-- A handler is shown a slot. -/
  | handle (i : Fin n) (x : Encounter σ)

namespace Depot

variable {σ : Type} {n k : Nat}

/-- Empty slots, and rings of these capacities and numbers of readers. -/
def opened (n : Nat) (rings : Fin k → UInt64 × UInt64) : Depot n k where
  slots _ := .empty
  rings r := .new (rings r).1 (rings r).2

def put (x : Depot n k) (i : Fin n) (slot : LooseSlot) : Depot n k :=
  { x with slots := update x.slots i slot }

def putRing (x : Depot n k) (r : Fin k) (ring : LooseRing) : Depot n k :=
  { x with rings := update x.rings r ring }

/-- Does something with slots. While a reader holds the place, a write waits and its event stays
where it is; clearing that slot is giving the write up. -/
def perform (x : Depot n k) : Op σ n k → Depot n k
  | .new i d => x.put i (.new d)
  | .default i => x.put i .empty
  | .fill i d failed => x.put i ((x.slots i).fill d failed)
  | .setFailed i failed => x.put i ((x.slots i).setFailed failed)
  | .clear i => x.put i (x.slots i).clear
  | .take i j => (x.put i (x.slots i).take.2).put j (x.slots i).take.1
  | .write r s i =>
      match (x.rings r).write? s (x.slots i).take.1 with
      | some ring => (x.put i (x.slots i).take.2).putRing r ring
      | none => x
  | .claim r s owns i =>
      match (x.rings r).claim s owns with
      | (event, ring) => (x.putRing r ring).put i event
  | .release r s => x.putRing r ((x.rings r).release s)
  | .abandon r s readers => x.putRing r ((x.rings r).abandon s readers)
  | .handle i y => x.put i (y.turn (x.slots i)).slot

def performAll (x : Depot n k) (ops : List (Op σ n k)) : Depot n k := ops.foldl perform x

/-- The pairing that an operation makes. -/
def Op.made : Op σ n k → Multiset Delivery
  | .new _ d => {d}
  | .fill _ d _ => {d}
  | _ => 0

def made (ops : List (Op σ n k)) : Multiset Delivery := (ops.map Op.made).sum

/-- The pairings in all slots. -/
def held (x : Depot n k) : Multiset Delivery := ∑ i, (x.slots i).held + ∑ r, (x.rings r).held

/-- The pairing that is gone after an operation: it was overwritten or dropped, or a handler has
taken it. -/
def spent (x : Depot n k) : Op σ n k → Multiset Delivery
  | .new i _ | .default i | .fill i .. | .clear i | .claim _ _ _ i => (x.slots i).held
  | .take i j => if i = j then 0 else (x.slots j).held
  | .write r s _ =>
      if ((x.rings r).place s).pending = 0 then ((x.rings r).place s).slot.held else 0
  | .abandon r s readers =>
      if readers ≠ 0 ∧ ((x.rings r).place s).pending = readers then
        ((x.rings r).place s).slot.held
      else 0
  | .handle i y => if y.handler.ownsLoose (x.slots i) then (x.slots i).held else 0
  | .setFailed .. | .release .. => 0

/-- All that is spent in a run. -/
def spentAll (x : Depot n k) : List (Op σ n k) → Multiset Delivery
  | [] => 0
  | op :: ops => x.spent op + (x.perform op).spentAll ops

/-- One of the slots, in hand or in a ring. -/
def Has (x : Depot n k) (slot : LooseSlot) : Prop :=
  (∃ i, x.slots i = slot) ∨ ∃ r s, ((x.rings r).place s).slot = slot

/-! ## Parts stay together -/

/-- All slots hold a delivery or nothing, and so do those of the rings. -/
structure Tight (x : Depot n k) : Prop where
  slots : ∀ i, ∃ s : Slot, s.loosen = x.slots i
  rings : ∀ r, ∃ y : Ring, y.loosen = x.rings r

namespace Tight

variable {x : Depot n k} {i : Fin n} {r : Fin k}

theorem opened (n : Nat) (rings : Fin k → UInt64 × UInt64) : (opened n rings).Tight where
  slots _ := ⟨.empty, rfl⟩
  rings r := ⟨.new (rings r).1 (rings r).2, Ring.loosen_new _ _⟩

theorem put (h : x.Tight) (slot : Slot) : (x.put i slot.loosen).Tight where
  slots := (Function.forall_update_iff x.slots fun _ y => ∃ s : Slot, s.loosen = y).mpr
    ⟨⟨slot, rfl⟩, fun j _ => h.slots j⟩
  rings := h.rings

theorem putRing (h : x.Tight) (ring : Ring) : (x.putRing r ring.loosen).Tight where
  slots := h.slots
  rings := (Function.forall_update_iff x.rings fun _ y => ∃ r : Ring, r.loosen = y).mpr
    ⟨⟨ring, rfl⟩, fun j _ => h.rings j⟩

theorem perform (h : x.Tight) (op : Op σ n k) : (x.perform op).Tight := by
  cases op with
  | new i d =>
      rw [Depot.perform, ← Slot.loosen_holding]
      exact h.put _
  | default i =>
      rw [Depot.perform, ← Slot.loosen_empty]
      exact h.put _
  | fill i d failed =>
      rw [Depot.perform, ← Slot.loosen_fill]
      exact h.put _
  | setFailed i failed =>
      obtain ⟨slot, hslot⟩ := h.slots i
      rw [Depot.perform, ← hslot, ← Slot.loosen_setFailed]
      exact h.put _
  | clear i => exact h.put .empty
  | take i j =>
      obtain ⟨slot, hslot⟩ := h.slots i
      rw [Depot.perform, ← hslot]
      exact (h.put .empty).put slot
  | write r s i =>
      obtain ⟨slot, hslot⟩ := h.slots i
      obtain ⟨ring, hring⟩ := h.rings r
      rw [Depot.perform, ← hslot, ← hring, LooseSlot.take, Ring.write?_loosen]
      cases ring.write? s slot with
      | none => exact h
      | some ring => exact (h.put .empty).putRing ring
  | claim r s owns i =>
      obtain ⟨ring, hring⟩ := h.rings r
      rw [Depot.perform, ← hring, Ring.claim_loosen]
      exact (h.putRing _).put _
  | release r s =>
      obtain ⟨ring, hring⟩ := h.rings r
      rw [Depot.perform, ← hring, Ring.release_loosen]
      exact h.putRing _
  | abandon r s readers =>
      obtain ⟨ring, hring⟩ := h.rings r
      rw [Depot.perform, ← hring, Ring.abandon_loosen]
      exact h.putRing _
  | handle i y =>
      rw [Depot.perform, Encounter.slot_turn]
      split
      · exact h.put .empty
      · obtain ⟨slot, hslot⟩ := h.slots i
        rw [← hslot]
        exact h.put slot

theorem performAll (h : x.Tight) (ops : List (Op σ n k)) : (x.performAll ops).Tight := by
  induction ops generalizing x with
  | nil => exact h
  | cons op ops ih => exact ih (h.perform op)

theorem exists_loosen (h : x.Tight) {slot : LooseSlot} (hslot : x.Has slot) :
    ∃ s : Slot, s.loosen = slot := by
  rcases hslot with ⟨i, rfl⟩ | ⟨r, s, rfl⟩
  · exact h.slots i
  · obtain ⟨ring, hring⟩ := h.rings r
    exact ⟨(ring.place s).slot, by rw [← hring, Ring.place_loosen]; rfl⟩

end Tight

/-! ## Pairings are conserved -/

section Held

variable (x : Depot n k)

theorem held_put (i : Fin n) (slot : LooseSlot) :
    (x.put i slot).held + (x.slots i).held = x.held + slot.held := by
  have h := sum_update LooseSlot.held x.slots i slot
  simp only [held, put]
  rw [add_right_comm, h]
  abel

theorem held_putRing (r : Fin k) (ring : LooseRing) :
    (x.putRing r ring).held + (x.rings r).held = x.held + ring.held := by
  have h := sum_update LooseRing.held x.rings r ring
  simp only [held, putRing]
  rw [add_assoc, h, add_assoc]

@[simp] theorem slots_put_self (i : Fin n) (slot : LooseSlot) : (x.put i slot).slots i = slot := by
  simp [put]

theorem slots_put_of_ne {i j : Fin n} (h : j ≠ i) (slot : LooseSlot) :
    (x.put i slot).slots j = x.slots j := by
  simp [put, h]

@[simp] theorem rings_put (i : Fin n) (slot : LooseSlot) : (x.put i slot).rings = x.rings := rfl

/-- A ring gives up what is no longer in it. -/
theorem held_putRing_of_gone {r : Fin k} {ring : LooseRing} {gone : Multiset Delivery}
    (h : ring.held + gone = (x.rings r).held) : (x.putRing r ring).held + gone = x.held := by
  have hput := x.held_putRing r ring
  rw [← h, add_comm ring.held, ← add_assoc] at hput
  exact add_right_cancel hput

/-- A slot gives up what is put elsewhere. -/
theorem held_put_empty (i : Fin n) : (x.put i .empty).held + (x.slots i).held = x.held :=
  (x.held_put i .empty).trans (add_zero _)

theorem held_take (i j : Fin n) :
    (x.perform (.take i j : Op σ n k)).held + x.spent (.take i j : Op σ n k) = x.held := by
  have htarget := (x.put i .empty).held_put j (x.slots i)
  rw [x.held_put_empty] at htarget
  rw [spent, ← htarget]
  split
  · next h => rw [← h, slots_put_self, LooseSlot.held_empty, h]; rfl
  · next h => rw [slots_put_of_ne _ (Ne.symm h)]; rfl

theorem held_write (r : Fin k) (s : Nat) (i : Fin n) :
    (x.perform (.write r s i : Op σ n k)).held + x.spent (.write r s i : Op σ n k) = x.held := by
  by_cases hpending : ((x.rings r).place s).pending = 0
  · have hplace := (x.rings r).held_update s ⟨x.slots i, (x.rings r).readers⟩
    have hring := (x.put i .empty).held_putRing r
      ((x.rings r).update s ⟨x.slots i, (x.rings r).readers⟩)
    rw [rings_put] at hring
    have hwritten : x.perform (.write r s i : Op σ n k) = (x.put i .empty).putRing r
        ((x.rings r).update s ⟨x.slots i, (x.rings r).readers⟩) := by
      simp [perform, LooseRing.write?, LooseSlot.take, hpending]
    refine add_right_cancel (b := (x.rings r).held) ?_
    rw [hwritten, spent, if_pos hpending, add_right_comm, hring, add_assoc, hplace,
      ← add_assoc, add_right_comm, x.held_put_empty]
  · simp [perform, LooseRing.write?, spent, hpending]

theorem held_claim (r : Fin k) (s : Nat) (owns : LooseSlot → Bool) (i : Fin n) :
    (x.perform (.claim r s owns i : Op σ n k)).held + (x.slots i).held = x.held := by
  have hring := x.held_putRing_of_gone ((x.rings r).held_claim s owns)
  rw [← hring]
  exact (x.putRing r ((x.rings r).claim s owns).2).held_put i _

/-- What an operation makes is there after it, and so is what was there before, but for what is
spent. -/
theorem held_perform (op : Op σ n k) :
    (x.perform op).held + x.spent op = x.held + op.made := by
  cases op with
  | new i d => simpa [perform, spent, Op.made] using x.held_put i (.new d)
  | default i => simpa [perform, spent, Op.made] using x.held_put_empty i
  | fill i d failed =>
      simpa [perform, spent, Op.made] using x.held_put i ((x.slots i).fill d failed)
  | clear i => simpa [perform, spent, Op.made] using x.held_put i (x.slots i).clear
  | setFailed i failed =>
      simpa [perform, spent, Op.made] using x.held_put i ((x.slots i).setFailed failed)
  | take i j => exact (x.held_take i j).trans (add_zero _).symm
  | write r s i => exact (x.held_write r s i).trans (add_zero _).symm
  | claim r s owns i => exact (x.held_claim r s owns i).trans (add_zero _).symm
  | release r s =>
      have hring := (x.rings r).held_release s
      simpa [perform, spent, Op.made, hring] using x.held_putRing r ((x.rings r).release s)
  | abandon r s readers =>
      have hring := x.held_putRing_of_gone ((x.rings r).held_abandon s readers)
      exact hring.trans (add_zero _).symm
  | handle i y =>
      rw [perform, spent, Encounter.slot_turn]
      split
      · exact (x.held_put_empty i).trans (add_zero _).symm
      · simpa [Op.made] using x.held_put i (x.slots i)

/-- So it is for a run. -/
theorem held_performAll (ops : List (Op σ n k)) :
    (x.performAll ops).held + x.spentAll ops = x.held + made ops := by
  induction ops generalizing x with
  | nil => rfl
  | cons op ops ih =>
      have hstep := x.held_perform op
      have hrest := ih (x.perform op)
      calc (x.performAll (op :: ops)).held + x.spentAll (op :: ops)
        _ = ((x.perform op).performAll ops).held + (x.perform op).spentAll ops + x.spent op := by
            rw [spentAll, add_comm (x.spent op), ← add_assoc]
            rfl
        _ = (x.perform op).held + x.spent op + made ops := by rw [hrest, add_right_comm]
        _ = x.held + made (op :: ops) := by
            rw [hstep, add_assoc, made, made, List.map_cons, List.sum_cons]

end Held

theorem held_opened (n : Nat) (rings : Fin k → UInt64 × UInt64) : (opened n rings).held = 0 := by
  simp [held, opened, LooseRing.held, LooseRing.new]

/-! ## After any run -/

/-- All that was in one slot is in another, and nothing is left behind. -/
structure Takes (x y : Depot n k) (source target : Fin n) : Prop where
  filled : y.slots target = x.slots source
  emptied : source ≠ target → y.slots source = .empty
  others : ∀ i, i ≠ source → i ≠ target → y.slots i = x.slots i
  rings : y.rings = x.rings

/-- All that was in a place, if it is owned, is in a slot, and nothing is left behind. Otherwise
the slot is empty, and the ring is as it was. -/
structure Claims (x y : Depot n k) (r : Fin k) (s : Nat) (owned : Bool) (target : Fin n) :
    Prop where
  filled : y.slots target = if owned then ((x.rings r).place s).slot else .empty
  emptied : ∀ t, (y.rings r).place t =
    if owned ∧ s % (x.rings r).capacity = t % (x.rings r).capacity then
      { (x.rings r).place t with slot := .empty }
    else (x.rings r).place t
  others : ∀ i, i ≠ target → y.slots i = x.slots i
  rings : ∀ q, q ≠ r → y.rings q = x.rings q

/-- What holds of slots on which operations have made these pairings, and of what is done next. -/
structure Intact (σ : Type) (x : Depot n k) (made : Multiset Delivery) : Prop where
  /-- A slot has a subscription, a message and a content, or none of them. -/
  whole : ∀ slot, x.Has slot → slot.Whole
  isEmpty_iff : ∀ slot, x.Has slot →
    (slot.isEmpty ↔ slot.subscription = none ∧ slot.failed = false)
  /-- No pairing is there more often than it was made, -/
  held_le : x.held ≤ made
  /-- and so, if none was made twice, each is in one place at most. -/
  held_nodup : made.Nodup → x.held.Nodup
  /-- Nothing makes a pairing but a new event and the filling of a slot. -/
  makes : ∀ op : Op σ n k, (x.perform op).held + x.spent op = x.held + op.made
  takes : ∀ i j, x.Takes (x.perform (.take i j : Op σ n k)) i j
  claims : ∀ r s owns i, x.Claims (x.perform (.claim r s owns i : Op σ n k)) r s
    (owns ((x.rings r).place s).slot) i
  /-- A handler that owns an event counts it, and reports it unless the delivery is given up, -/
  serves : ∀ i (y : Encounter σ), y.handler.ownsLoose (x.slots i) →
    ∃ d, (x.slots i).pairing? = some d ∧ y.Serves d (y.turn (x.slots i))
  /-- and one that does not own it leaves it alone. -/
  passes : ∀ i (y : Encounter σ), ¬ y.handler.ownsLoose (x.slots i) →
    (y.turn (x.slots i)).slot = x.slots i ∧ (y.turn (x.slots i)).result = .foreign ∧
      (y.turn (x.slots i)).handler.tally.owned = y.handler.tally.owned
  /-- A ring is one of slots that hold a delivery or nothing, in parts, -/
  keeps : ∀ r, ∃ ring : Ring, ring.loosen = x.rings r ∧
    (∀ s slot, (x.rings r).write? s (Slot.loosen slot) = (ring.write? s slot).map Ring.loosen) ∧
    ∀ s owns, (x.rings r).claim s owns =
      (ring.claim s fun slot => owns slot.loosen).map Slot.loosen Ring.loosen
  /-- and a handler that is not given up does with a slot in parts what it does with the slot. -/
  handles : ∀ i, ∃ slot : Slot, slot.loosen = x.slots i ∧ ∀ y : Encounter σ, y.patience = none →
    y.turn (x.slots i) = (y.handler.handle y.callees slot y.sequence y.last y.scene).loosen

section Moves

variable (x : Depot n k)

theorem takes_perform (i j : Fin n) : x.Takes (x.perform (.take i j : Op σ n k)) i j where
  filled := slots_put_self _ _ _
  emptied h := (slots_put_of_ne _ h _).trans (slots_put_self _ _ _)
  others _ hi hj := (slots_put_of_ne _ hj _).trans (slots_put_of_ne _ hi _)
  rings := rfl

theorem claims_perform (r : Fin k) (s : Nat) (owns : LooseSlot → Bool) (i : Fin n) :
    x.Claims (x.perform (.claim r s owns i : Op σ n k)) r s (owns ((x.rings r).place s).slot)
      i where
  filled := by
    have hclaim : (x.perform (.claim r s owns i : Op σ n k)).slots i =
        ((x.rings r).claim s owns).1 := slots_put_self _ _ _
    rw [hclaim, LooseRing.claim]
    split <;> rfl
  emptied t := by
    have hring : (x.perform (.claim r s owns i : Op σ n k)).rings r =
        ((x.rings r).claim s owns).2 := Function.update_self ..
    rw [hring, LooseRing.place_claim]
  others _ hl := slots_put_of_ne _ hl _
  rings _ hq := Function.update_of_ne hq ..

end Moves

/-- What is in slots stays together and is passed on as it is, whatever is done with them. -/
theorem intact_performAll (rings : Fin k → UInt64 × UInt64) (ops : List (Op σ n k)) :
    ((opened n rings).performAll ops).Intact σ (made ops) := by
  have htight := (Tight.opened n rings).performAll ops
  have hheld := (opened n rings).held_performAll ops
  rw [held_opened, zero_add] at hheld
  have hle : ((opened n rings).performAll ops).held ≤ made ops := hheld ▸ Multiset.le_add_right _ _
  generalize (opened n rings).performAll ops = x at htight hle ⊢
  have hwhole : ∀ slot, x.Has slot → slot.Whole := fun slot hslot =>
    LooseSlot.whole_iff.mpr (htight.exists_loosen hslot)
  exact {
    whole := hwhole
    isEmpty_iff := fun slot hslot => (hwhole slot hslot).isEmpty_iff
    held_le := hle
    held_nodup := Multiset.nodup_of_le hle
    makes := x.held_perform
    takes := x.takes_perform
    claims := x.claims_perform
    serves := fun i y howns => by
      obtain ⟨slot, hslot⟩ := htight.slots i
      rw [← hslot, Handler.ownsLoose_loosen, Handler.owns_iff] at howns
      obtain ⟨d, hd⟩ := howns
      rw [← hslot]
      exact ⟨d, slot.pairing?_loosen.trans (Handler.claim?_eq_some_iff.mp hd).1, y.serves_turn hd⟩
    passes := fun i y howns => by
      rw [Encounter.turn_of_foreign howns]
      exact ⟨rfl, rfl, rfl⟩
    keeps := fun r => by
      obtain ⟨ring, hring⟩ := htight.rings r
      exact ⟨ring, hring, fun s slot => hring ▸ ring.write?_loosen s slot,
        fun s owns => hring ▸ ring.claim_loosen s owns⟩
    handles := fun i => by
      obtain ⟨slot, hslot⟩ := htight.slots i
      exact ⟨slot, hslot, fun y hy => by rw [← hslot, Encounter.turn_loosen hy]⟩ }

end Depot

end ShardedDelivery
