import Mathlib.Algebra.GroupWithZero.Nat
import Mathlib.Data.List.Perm.Basic
import ShardedDelivery.Handler
import ShardedDelivery.Ring

/-! # What is left in a place

A place that was written is held by all readers. Each of them looks at the event and then releases
the place, or is among those that the place is released for at once. Whoever comes last frees the
place; whether it is empty then depends on who that was and on whether the event's owner looked. -/

namespace ShardedDelivery.Ring

/-- What is done with a sequence that was written. -/
inductive Op where
  | claim (reader : Nat)
  | release (reader : Nat)
  | abandon (readers : UInt64)
deriving DecidableEq, Repr

namespace Op

def claimant? : Op → Option Nat
  | claim i => some i
  | _ => none

def leaver? : Op → Option Nat
  | release i => some i
  | _ => none

def deserters? : Op → Option UInt64
  | abandon k => some k
  | _ => none

/-- How many readers let go of the place. -/
def departing : Op → Nat
  | claim _ => 0
  | release _ => 1
  | abandon k => k.toNat

end Op

/-- Reader `i` takes the event out if `owns i` says that it is its own. -/
def perform (owns : Nat → Slot → Bool) (s : Nat) (r : Ring) : Op → Ring
  | .claim i => (r.claim s (owns i)).2
  | .release _ => r.release s
  | .abandon k => r.abandon s k

def performAll (owns : Nat → Slot → Bool) (s : Nat) (r : Ring) (ops : List Op) : Ring :=
  ops.foldl (perform owns s) r

/-- How many readers have let go of the place. -/
def departed (ops : List Op) : Nat := (ops.map Op.departing).sum

variable {owns : Nat → Slot → Bool} {s n : Nat} {r r' : Ring} {slot : Slot} {ops : List Op}

@[simp] theorem performAll_nil (r : Ring) : r.performAll owns s [] = r := rfl

@[simp] theorem performAll_cons (r : Ring) (op : Op) (ops : List Op) :
    r.performAll owns s (op :: ops) = (r.perform owns s op).performAll owns s ops := rfl

theorem performAll_append (r : Ring) (ops ops' : List Op) :
    r.performAll owns s (ops ++ ops') = (r.performAll owns s ops).performAll owns s ops' :=
  List.foldl_append

@[simp] theorem departed_nil : departed [] = 0 := rfl

@[simp] theorem departed_cons (op : Op) (ops : List Op) :
    departed (op :: ops) = op.departing + departed ops := by
  simp [departed]

@[simp] theorem departed_append (ops ops' : List Op) :
    departed (ops ++ ops') = departed ops + departed ops' := by
  simp [departed]

/-! ## The pending count -/

theorem pending_perform (owns : Nat → Slot → Bool) (s : Nat) (r : Ring) (op : Op)
    (h : op.departing ≤ (r.place s).pending.toNat) :
    ((r.perform owns s op).place s).pending.toNat =
      (r.place s).pending.toNat - op.departing := by
  cases op with
  | claim i =>
      rw [perform, place_claim]
      split <;> rfl
  | release i =>
      rw [perform, place_release, if_pos rfl]
      exact UInt64.toNat_sub_of_le _ 1 h
  | abandon k =>
      rw [perform, place_abandon]
      by_cases hk : k = 0
      · simp [hk, Op.departing]
      · rw [if_pos ⟨rfl, hk⟩]
        by_cases hp : (r.place s).pending = k
        · simp [hp, Op.departing]
        · rw [if_neg hp]
          exact UInt64.toNat_sub_of_le _ k h

theorem pending_performAll (r : Ring) (ops : List Op)
    (h : departed ops ≤ (r.place s).pending.toNat) :
    ((r.performAll owns s ops).place s).pending.toNat =
      (r.place s).pending.toNat - departed ops := by
  induction ops generalizing r with
  | nil => rfl
  | cons op ops ih =>
      rw [departed_cons] at h ⊢
      have hop := pending_perform owns s r op (by omega)
      rw [performAll_cons, ih _ (by omega), hop]
      omega

/-! ## The event -/

/-- The event of a place stays, or the place is emptied. -/
theorem slot_perform (owns : Nat → Slot → Bool) (s : Nat) (r : Ring) (op : Op) :
    ((r.perform owns s op).place s).slot = (r.place s).slot ∨
      ((r.perform owns s op).place s).slot = .empty := by
  cases op with
  | claim i =>
      rw [perform, place_claim]
      split
      · exact .inr rfl
      · exact .inl rfl
  | release i =>
      rw [perform, place_release, if_pos rfl]
      exact .inl rfl
  | abandon k =>
      rw [perform, place_abandon]
      split
      · split
        · exact .inr rfl
        · exact .inl rfl
      · exact .inl rfl

theorem slot_performAll (owns : Nat → Slot → Bool) (s : Nat) (r : Ring) (ops : List Op) :
    ((r.performAll owns s ops).place s).slot = (r.place s).slot ∨
      ((r.performAll owns s ops).place s).slot = .empty := by
  induction ops generalizing r with
  | nil => exact .inl rfl
  | cons op ops ih =>
      rcases ih (r.perform owns s op) with h | h
      · rcases slot_perform owns s r op with hop | hop
        · exact .inl (h.trans hop)
        · exact .inr (h.trans hop)
      · exact .inr h

/-- An event that its owner has looked at is gone. -/
theorem slot_performAll_of_claim {i : Nat} (hc : .claim i ∈ ops)
    (ho : owns i (r.place s).slot) : ((r.performAll owns s ops).place s).slot = .empty := by
  obtain ⟨before, later, rfl⟩ := List.append_of_mem hc
  have htaken : (((r.performAll owns s before).perform owns s (.claim i)).place s).slot =
      .empty := by
    rw [perform, place_claim]
    rcases slot_performAll owns s r before with h | h
    · rw [if_pos ⟨rfl, by rwa [h]⟩]
    · split
      · rfl
      · exact h
  rw [performAll_append, performAll_cons]
  rcases slot_performAll owns s
    ((r.performAll owns s before).perform owns s (.claim i)) later with h | h
  · exact h.trans htaken
  · exact h

/-- While somebody holds the place, only the owner's look empties it. -/
theorem slot_performAll_of_foreign (h : departed ops < (r.place s).pending.toNat)
    (ho : ∀ i, .claim i ∈ ops → ¬ owns i (r.place s).slot) :
    ((r.performAll owns s ops).place s).slot = (r.place s).slot := by
  induction ops generalizing r with
  | nil => rfl
  | cons op ops ih =>
      rw [departed_cons] at h
      have hpending := pending_perform owns s r op (by omega)
      have hslot : ((r.perform owns s op).place s).slot = (r.place s).slot := by
        cases op with
        | claim i =>
            have hi : ¬ owns i (r.place s).slot := ho i (by simp)
            rw [perform, place_claim, if_neg (by simp [hi])]
        | release i =>
            rw [perform, place_release, if_pos rfl]
        | abandon k =>
            rw [perform, place_abandon]
            have hk : (r.place s).pending ≠ k := by
              rintro rfl
              simp only [Op.departing] at h
              omega
            simp only [hk, if_false]
            split <;> rfl
      rw [performAll_cons, ih (by omega), hslot]
      intro i hi
      rw [hslot]
      exact ho i (List.mem_cons_of_mem _ hi)

/-! ## Every reader accounted for -/

/-- Each of `n` readers is accounted for once: it claims and then releases, or it is one of those
that the sequence is abandoned for. -/
structure Accounts (n : Nat) (ops : List Op) : Prop where
  known : ∀ i, .claim i ∈ ops → i < n
  once : (ops.filterMap Op.claimant?).Nodup
  leave : (ops.filterMap Op.leaver?).Perm (ops.filterMap Op.claimant?)
  /-- No reader looks after its release. -/
  after : ops.Pairwise fun op op' => ∀ i, op = .release i → op' ≠ .claim i
  others : ∃ k, ops.filterMap Op.deserters? = [k] ∧ k ≠ 0 ∧
    (ops.filterMap Op.claimant?).length + k.toNat = n

theorem departed_eq (ops : List Op) :
    departed ops =
      (ops.filterMap Op.leaver?).length + ((ops.filterMap Op.deserters?).map UInt64.toNat).sum := by
  induction ops with
  | nil => rfl
  | cons op ops ih =>
      rw [departed_cons, ih]
      cases op with
      | claim i => exact Nat.zero_add _
      | release i =>
          rw [List.filterMap_cons_some (f := Op.leaver?) rfl, List.length_cons]
          exact (Nat.add_comm _ _).trans (Nat.add_right_comm _ _ _)
      | abandon k =>
          rw [List.filterMap_cons_some (f := Op.deserters?) rfl, List.map_cons, List.sum_cons]
          exact Nat.add_left_comm _ _ _

namespace Accounts

theorem departed (h : Accounts n ops) : Ring.departed ops = n := by
  obtain ⟨k, hk, -, hn⟩ := h.others
  rw [departed_eq, hk, h.leave.length_eq]
  simpa using hn

/-- A reader that has looked has still to release. -/
theorem last_ne_claim {done : List Op} {op : Op} (h : Accounts n (done ++ [op])) (i : Nat) :
    op ≠ .claim i := by
  rintro rfl
  have hi : i ∈ (done ++ [Op.claim i]).filterMap Op.leaver? := by
    rw [h.leave.mem_iff]
    simp [Op.claimant?]
  obtain ⟨op, hop, hleaver⟩ := List.mem_filterMap.mp hi
  obtain rfl : op = .release i := by
    cases op <;> simp_all [Op.leaver?]
  have hdone : .release i ∈ done := by simpa using hop
  have hafter := (List.pairwise_append.mp h.after).2.2
  exact hafter _ hdone _ (List.mem_singleton_self _) i rfl rfl

theorem departing_pos {done : List Op} {op : Op} (h : Accounts n (done ++ [op])) :
    0 < op.departing := by
  cases op with
  | claim i => exact absurd rfl (h.last_ne_claim i)
  | release i => exact Nat.one_pos
  | abandon k =>
      obtain ⟨k', hk, hpos, -⟩ := h.others
      have : k ∈ [k'] := by
        rw [← hk]
        simp [Op.deserters?]
      obtain rfl := List.mem_singleton.mp this
      apply Nat.pos_of_ne_zero
      intro hzero
      exact hpos (UInt64.toNat_inj.mp hzero)

/-- Before the last operation, somebody is left. -/
theorem departed_lt {done later : List Op} (h : Accounts n (done ++ later)) (hl : later ≠ []) :
    Ring.departed done < n := by
  obtain ⟨later, op, rfl⟩ := List.eq_nil_or_concat later |>.resolve_left hl
  have hdeparted := h.departed
  rw [List.concat_eq_append, ← List.append_assoc] at h
  have hpos := h.departing_pos
  simp only [departed_append, List.concat_eq_append, departed_cons] at hdeparted
  omega

end Accounts

/-- What becomes of an event while its readers are accounted for one after another. -/
structure Residue (owns : Nat → Slot → Bool) (s : Nat) (r : Ring) (slot : Slot) (ops : List Op) :
    Prop where
  /-- Until the last operation the place is held. -/
  held : ∀ done later, ops = done ++ later → later ≠ [] →
    ((r.performAll owns s done).place s).pending ≠ 0
  /-- The last operation frees it. -/
  freed : ((r.performAll owns s ops).place s).pending = 0
  /-- An abandon that frees the place empties it. -/
  dropped : ∀ k, ops.getLast? = some (.abandon k) → (r.performAll owns s ops).isEmptyAt s
  /-- An event that its owner has looked at is gone in any case. -/
  taken : ∀ i, .claim i ∈ ops → owns i slot → (r.performAll owns s ops).isEmptyAt s
  /-- A release that frees the place leaves behind an event whose owner was given up. -/
  left : ∀ i, ops.getLast? = some (.release i) → (∀ j, .claim j ∈ ops → ¬ owns j slot) →
    (r.performAll owns s ops).place s = ⟨slot, 0⟩

/-- An event outlives the readers of its place exactly if its owner is given up and the place is
freed by a release. -/
theorem residue_of_accounts (owns : Nat → Slot → Bool) (hw : r.write? s slot = some r')
    (h : Accounts r.readers.toNat ops) : Residue owns s r' slot ops := by
  have hplace : r'.place s = ⟨slot, r.readers⟩ := by rw [place_write? hw, if_pos rfl]
  have hpending {done later : List Op} (hops : ops = done ++ later) :
      ((r'.performAll owns s done).place s).pending.toNat =
        r.readers.toNat - departed done := by
    have hdeparted := h.departed
    rw [hops, departed_append] at hdeparted
    rw [pending_performAll, hplace]
    rw [hplace]
    exact hdeparted ▸ Nat.le_add_right _ _
  have hfreed : ((r'.performAll owns s ops).place s).pending = 0 := by
    apply UInt64.toNat_inj.mp
    rw [hpending (List.append_nil _).symm, h.departed, Nat.sub_self]
    rfl
  constructor
  case held =>
    intro done later hops hl hzero
    have hlt := (hops ▸ h).departed_lt hl
    have := hpending hops
    rw [hzero, UInt64.toNat_zero] at this
    omega
  case freed => exact hfreed
  case dropped =>
    intro k hk
    obtain ⟨done, rfl⟩ := List.getLast?_eq_some_iff.mp hk
    have hdeparted := h.departed
    have hpos := h.departing_pos
    simp only [departed_append, departed_cons, departed_nil, Op.departing] at hdeparted hpos
    have hlast : ((r'.performAll owns s done).place s).pending = k := by
      apply UInt64.toNat_inj.mp
      rw [hpending rfl]
      exact Nat.sub_eq_of_eq_add' hdeparted.symm
    rw [isEmptyAt, performAll_append, performAll_cons, performAll_nil, perform, place_abandon,
      if_pos ⟨rfl, by rintro rfl; simp at hpos⟩, if_pos hlast]
    rfl
  case taken =>
    intro i hi ho
    rw [isEmptyAt, slot_performAll_of_claim hi (by rwa [hplace])]
    rfl
  case left =>
    intro i hi ho
    obtain ⟨done, rfl⟩ := List.getLast?_eq_some_iff.mp hi
    have hslot : ((r'.performAll owns s done).place s).slot = slot := by
      rw [slot_performAll_of_foreign, hplace]
      · rw [hplace]
        exact h.departed_lt (List.cons_ne_nil _ _)
      · intro j hj
        rw [hplace]
        exact ho j (List.mem_append_left _ hj)
    have hlast : ((r'.performAll owns s (done ++ [.release i])).place s).slot = slot := by
      rwa [performAll_append, performAll_cons, performAll_nil, perform, place_release, if_pos rfl]
    exact congrArg₂ Place.mk hlast hfreed

/-! ## Two readers, one event -/

namespace Rehearsal

/-- A delivery that the second of two handlers serves. -/
def bill : Delivery := ⟨⟨0, ⟨0, 1⟩, true⟩, ⟨9, ⟨90⟩, "bills", .queue⟩, {}⟩

def handlers (i : Nat) : Slot → Bool := (Handler.new i 2 "dead").owns

/-- A ring of one place for two readers, with the bill in it. -/
def written : Ring := (Ring.new 1 2).update 0 ⟨.holding bill false, 2⟩

theorem write?_new : (Ring.new 1 2).write? 0 (.holding bill false) = some written := rfl

/-- The owner is given up before the other one looks and releases. -/
def ownerGone : List Op := [.abandon 1, .claim 0, .release 0]

/-- The owner looks, and the other one is given up last. -/
def otherGone : List Op := [.claim 1, .release 1, .abandon 1]

theorem accounts_ownerGone : Accounts 2 ownerGone where
  known := by simp [ownerGone]
  once := by decide
  leave := by decide
  after := by simp [ownerGone]
  others := ⟨1, by decide, by decide, by decide⟩

theorem accounts_otherGone : Accounts 2 otherGone where
  known := by simp [otherGone]
  once := by decide
  leave := by decide
  after := by simp [otherGone]
  others := ⟨1, by decide, by decide, by decide⟩

end Rehearsal

open Ring.Rehearsal in
/-- In the first order the bill stays in the free place, in the second it is gone. -/
theorem residue_of_accounts_rehearsal :
    (Ring.new 1 2).write? 0 (.holding bill false) = some written ∧
      (written.performAll handlers 0 ownerGone).place 0 = ⟨.holding bill false, 0⟩ ∧
      (written.performAll handlers 0 otherGone).isEmptyAt 0 := by
  have hgone := residue_of_accounts handlers write?_new accounts_ownerGone
  have hother := residue_of_accounts handlers write?_new accounts_otherGone
  refine ⟨write?_new, hgone.left 0 rfl ?_, hother.dropped 1 rfl⟩
  intro i hi
  obtain rfl : i = 0 := by simpa [ownerGone] using hi
  decide

open Ring.Rehearsal in
/-- A free place need not be empty, although all readers are accounted for. -/
theorem exists_event_without_reader : ¬ ∀ (capacity readers : UInt64) (queue : String) (r' : Ring)
    (s : Nat) (d : Delivery) (ops : List Op),
    (Ring.new capacity readers).write? s (.holding d false) = some r' →
      Accounts (Ring.new capacity readers).readers.toNat ops →
      let owns i := (Handler.new i (Ring.new capacity readers).readers.toNat queue).owns
      ((r'.performAll owns s ops).place s).pending = 0 →
        (r'.performAll owns s ops).isEmptyAt s := by
  intro hclaim
  have hempty := hclaim 1 2 "dead" _ 0 bill ownerGone write?_new accounts_ownerGone (by decide)
  revert hempty
  decide

end ShardedDelivery.Ring
