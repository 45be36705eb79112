import Mathlib.Data.List.Range
import ShardedDelivery.Proofs.Pool.Run

/-! # Trails

A trail is numbered when every handler brings the sequences 0, 1, 2, … past every point in turn.
Then how far a handler is at a point is one number, and says which sequences have passed it. -/

namespace ShardedDelivery

namespace Deed

/-- Whether this handler passes this point. -/
def passes (i : Nat) (φ : Phase) (x : Deed) : Bool := (x.sequenceAt? i φ).isSome

section Passing

variable (i j s ticket : Nat) (slot : Slot) (φ : Phase)

@[simp] theorem sequenceAt?_came : (came ticket slot).sequenceAt? i φ = none := rfl

@[simp] theorem sequenceAt?_wrote : (wrote ticket s slot).sequenceAt? i φ = none := rfl

@[simp] theorem sequenceAt?_gaveUp : (gaveUp j s).sequenceAt? i φ = none := rfl

@[simp] theorem sequenceAt?_stopped : (stopped j).sequenceAt? i φ = none := rfl

@[simp] theorem sequenceAt?_called (d : Delivery) (c : Call) :
    (called j s d c).sequenceAt? i φ = none := rfl

@[simp] theorem sequenceAt?_recorded (report : Report) :
    (recorded j s report).sequenceAt? i φ = none := rfl

@[simp] theorem sequenceAt?_reported (report : Report) :
    (reported j s report).sequenceAt? i φ = none := rfl

@[simp] theorem sequenceAt?_told :
    (told j s).sequenceAt? i φ = if j = i ∧ .heard = φ then some s else none := rfl

@[simp] theorem sequenceAt?_received :
    (received j s).sequenceAt? i φ = if j = i ∧ .received = φ then some s else none := rfl

@[simp] theorem sequenceAt?_claimed :
    (claimed j s slot).sequenceAt? i φ = if j = i ∧ .claimed = φ then some s else none := rfl

@[simp] theorem sequenceAt?_released :
    (released j s).sequenceAt? i φ = if j = i ∧ .released = φ then some s else none := rfl

@[simp] theorem sequenceAt?_begun :
    (begun j s slot).sequenceAt? i φ = if j = i ∧ .begun = φ then some s else none := rfl

@[simp] theorem sequenceAt?_done :
    (done j s).sequenceAt? i φ = if j = i ∧ .done = φ then some s else none := rfl

end Passing

section Points

variable {i s : Nat} {x : Deed}

theorem sequenceAt?_told_iff : x.sequenceAt? i .heard = some s ↔ x = told i s := by
  cases x <;> simp

theorem sequenceAt?_received_iff : x.sequenceAt? i .received = some s ↔ x = received i s := by
  cases x <;> simp

theorem sequenceAt?_claimed_iff :
    x.sequenceAt? i .claimed = some s ↔ ∃ slot, x = claimed i s slot := by
  cases x <;> simp

theorem sequenceAt?_released_iff : x.sequenceAt? i .released = some s ↔ x = released i s := by
  cases x <;> simp

theorem sequenceAt?_begun_iff : x.sequenceAt? i .begun = some s ↔ ∃ slot, x = begun i s slot := by
  cases x <;> simp

theorem sequenceAt?_done_iff : x.sequenceAt? i .done = some s ↔ x = done i s := by
  cases x <;> simp

end Points

end Deed

namespace Trail

@[simp] theorem events_nil : events [] = [] := rfl

@[simp] theorem events_append (past deeds : Trail) :
    events (past ++ deeds) = events past ++ events deeds :=
  List.filterMap_append

@[simp] theorem events_cons (x : Deed) (deeds : Trail) :
    events (x :: deeds) = x.event?.toList ++ events deeds := by
  cases h : x.event? <;> simp [events, h]

@[simp] theorem passed_nil (i : Nat) (φ : Phase) : passed [] i φ = [] := rfl

theorem passed_cons (x : Deed) (deeds : Trail) (i : Nat) (φ : Phase) :
    passed (x :: deeds) i φ = (x.sequenceAt? i φ).toList ++ passed deeds i φ := by
  cases h : x.sequenceAt? i φ <;> simp [passed, h]

@[simp] theorem passed_append (past deeds : Trail) (i : Nat) (φ : Phase) :
    passed (past ++ deeds) i φ = passed past i φ ++ passed deeds i φ :=
  List.filterMap_append

@[simp] theorem reached_nil (i : Nat) (φ : Phase) : reached [] i φ = 0 := rfl

@[simp] theorem reached_append (past deeds : Trail) (i : Nat) (φ : Phase) :
    reached (past ++ deeds) i φ = reached past i φ + reached deeds i φ := by
  simp [reached]

@[simp] theorem reached_cons (x : Deed) (deeds : Trail) (i : Nat) (φ : Phase) :
    reached (x :: deeds) i φ = (if x.passes i φ then 1 else 0) + reached deeds i φ := by
  cases h : x.sequenceAt? i φ <;> simp [reached, passed_cons, Deed.passes, h, Nat.add_comm]

/-- Deeds by which a handler passes nothing leave it where it is. -/
theorem reached_append_of_passed {deeds : Trail} {i : Nat} (past : Trail)
    (h : ∀ φ, passed deeds i φ = []) : reached (past ++ deeds) i = past.reached i := by
  funext φ
  simp [reached, h φ]

theorem mem_passed {past : Trail} {i s : Nat} {φ : Phase} :
    s ∈ passed past i φ ↔ ∃ x ∈ past, x.sequenceAt? i φ = some s := by
  simp [passed]

/-- Every handler brings the sequences past every point in turn, from the first on. -/
def Numbered (past : Trail) : Prop := ∀ i φ, past.passed i φ = List.range (past.reached i φ)

namespace Numbered

theorem nil : Numbered [] := fun _ _ => rfl

/-- A numbered trail stays so when each handler passes each point with the next number, if at
all. -/
theorem append {past deeds : Trail} (h : Numbered past)
    (hd : ∀ i φ, passed deeds i φ = [] ∨ passed deeds i φ = [reached past i φ]) :
    Numbered (past ++ deeds) := by
  intro i φ
  rw [passed_append, reached_append, h i φ]
  rcases hd i φ with hnil | hone
  · simp [reached, hnil]
  · have hlength : reached deeds i φ = 1 := by simp [reached, hone]
    rw [hone, hlength, List.range_succ]

theorem mem_passed_iff {past : Trail} (h : Numbered past) {i s : Nat} {φ : Phase} :
    s ∈ passed past i φ ↔ s < reached past i φ := by
  rw [h i φ, List.mem_range]

/-- Which sequences a handler has brought past a point. -/
theorem lt_reached_iff {past : Trail} (h : Numbered past) {i s : Nat} {φ : Phase} :
    s < reached past i φ ↔ ∃ x ∈ past, x.sequenceAt? i φ = some s := by
  rw [← h.mem_passed_iff, mem_passed]

section Points

variable {past : Trail} {i s : Nat}

theorem told_iff (h : Numbered past) : .told i s ∈ past ↔ s < reached past i .heard := by
  simp [h.lt_reached_iff, Deed.sequenceAt?_told_iff]

theorem received_iff (h : Numbered past) : .received i s ∈ past ↔ s < reached past i .received := by
  simp [h.lt_reached_iff, Deed.sequenceAt?_received_iff]

theorem claimed_iff (h : Numbered past) :
    (∃ slot, .claimed i s slot ∈ past) ↔ s < reached past i .claimed := by
  simp only [h.lt_reached_iff, Deed.sequenceAt?_claimed_iff]
  constructor
  · rintro ⟨slot, hmem⟩
    exact ⟨_, hmem, slot, rfl⟩
  · rintro ⟨x, hmem, slot, rfl⟩
    exact ⟨slot, hmem⟩

theorem released_iff (h : Numbered past) :
    .released i s ∈ past ↔ s < reached past i .released := by
  simp [h.lt_reached_iff, Deed.sequenceAt?_released_iff]

theorem begun_iff (h : Numbered past) :
    (∃ slot, .begun i s slot ∈ past) ↔ s < reached past i .begun := by
  simp only [h.lt_reached_iff, Deed.sequenceAt?_begun_iff]
  constructor
  · rintro ⟨slot, hmem⟩
    exact ⟨_, hmem, slot, rfl⟩
  · rintro ⟨x, hmem, slot, rfl⟩
    exact ⟨slot, hmem⟩

theorem done_iff (h : Numbered past) : .done i s ∈ past ↔ s < reached past i .done := by
  simp [h.lt_reached_iff, Deed.sequenceAt?_done_iff]

end Points

theorem nodup {past : Trail} (h : Numbered past) (i : Nat) (φ : Phase) :
    (passed past i φ).Nodup := by
  rw [h i φ]
  exact List.nodup_range

end Numbered

end Trail

end ShardedDelivery
