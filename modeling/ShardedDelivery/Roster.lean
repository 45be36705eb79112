/-! # Finite sets

A roster lists its members without repetition, so its size is the number of members. -/

namespace ShardedDelivery

/-- A finite set. -/
structure Roster (α : Type) where
  items : List α := []
  nodup : items.Nodup := by simp

namespace Roster

instance {α : Type} : Inhabited (Roster α) := ⟨{}⟩

instance {α : Type} : Membership α (Roster α) := ⟨fun r a => a ∈ r.items⟩

theorem mem_def {α : Type} {a : α} {r : Roster α} : a ∈ r ↔ a ∈ r.items := Iff.rfl

@[simp] theorem not_mem_empty {α : Type} (a : α) : ¬ a ∈ ({} : Roster α) := by simp [mem_def]

/-- The number of members. -/
def size {α : Type} (r : Roster α) : Nat := r.items.length

variable {α : Type} [DecidableEq α]

instance (a : α) (r : Roster α) : Decidable (a ∈ r) := inferInstanceAs (Decidable (a ∈ r.items))

/-- Adds a member; a second time changes nothing. -/
def insert (r : Roster α) (a : α) : Roster α :=
  if h : a ∈ r.items then r else ⟨a :: r.items, List.nodup_cons.mpr ⟨h, r.nodup⟩⟩

/-- Takes a member out; one that is not there changes nothing. -/
def erase (r : Roster α) (a : α) : Roster α :=
  ⟨r.items.filter (· ≠ a), r.nodup.sublist List.filter_sublist⟩

@[simp] theorem mem_insert {a b : α} {r : Roster α} : a ∈ r.insert b ↔ a = b ∨ a ∈ r := by
  unfold insert
  split
  · next h =>
      constructor
      · exact Or.inr
      · rintro (rfl | h') <;> assumption
  · simp [mem_def]

@[simp] theorem mem_erase {a b : α} {r : Roster α} : a ∈ r.erase b ↔ a ∈ r ∧ a ≠ b := by
  simp [erase, mem_def]

end Roster

end ShardedDelivery
