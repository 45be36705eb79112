import Mathlib.Algebra.BigOperators.Group.Finset.Basic
import Mathlib.Data.UInt
import ShardedDelivery.Tally

/-! # Tallies as numbers

Tallies are added counter by counter, and the counters wrap, so tallies form a commutative group.
What is counted at one place in a run can be told apart from what is counted elsewhere. -/

namespace ShardedDelivery.Tally

@[ext] theorem ext {t u : Tally} (hseen : t.seen = u.seen) (howned : t.owned = u.owned)
    (hdelivered : t.delivered = u.delivered) (hrollbacks : t.rollbacks = u.rollbacks)
    (hrequeued : t.requeued = u.requeued) (hdeadLettered : t.deadLettered = u.deadLettered)
    (hdropped : t.dropped = u.dropped) (hunhandled : t.unhandled = u.unhandled) : t = u := by
  cases t
  cases u
  simp_all

theorem add_def (t u : Tally) : t + u = t.add u := rfl

theorem zero_def : (0 : Tally) = {} := rfl

/-- The tally that takes this one back. -/
def negate (t : Tally) : Tally where
  seen := -t.seen
  owned := -t.owned
  delivered := -t.delivered
  rollbacks := -t.rollbacks
  requeued := -t.requeued
  deadLettered := -t.deadLettered
  dropped := -t.dropped
  unhandled := -t.unhandled

instance : Neg Tally := ⟨negate⟩

theorem neg_def (t : Tally) : -t = t.negate := rfl

instance : AddCommGroup Tally where
  add_assoc t u v := by ext <;> simp only [add_def, add, add_assoc]
  zero_add t := by ext <;> simp only [add_def, zero_def, add, zero_add]
  add_zero t := by ext <;> simp only [add_def, zero_def, add, add_zero]
  add_comm t u := by ext <;> simp only [add_def, add, add_comm]
  neg_add_cancel t := by ext <;> simp only [add_def, neg_def, zero_def, add, negate, neg_add_cancel]
  nsmul := nsmulRec
  zsmul := zsmulRec

theorem total_eq_sum (tallies : List Tally) : total tallies = tallies.sum := by
  rw [total, List.sum_eq_foldl]
  rfl

/-- The tally without the count of events seen. -/
def work (t : Tally) : Tally := { t with seen := 0 }

@[simp] theorem work_zero : work 0 = 0 := rfl

@[simp] theorem work_add (t u : Tally) : (t + u).work = t.work + u.work := by
  ext <;> simp only [work, add_def, add, add_zero]

theorem work_sum (tallies : List Tally) : tallies.sum.work = (tallies.map work).sum := by
  induction tallies with
  | nil => rfl
  | cons t tallies ih => rw [List.sum_cons, work_add, ih, List.map_cons, List.sum_cons]

@[simp] theorem work_countSeen (t : Tally) : t.countSeen.work = t.work := rfl

theorem countOwned_eq (t : Tally) : t.countOwned = t + { owned := 1 } := by
  ext <;> simp only [countOwned, add_def, add, add_zero]

theorem countRollback_eq (t : Tally) : t.countRollback = t + { rollbacks := 1 } := by
  ext <;> simp only [countRollback, add_def, add, add_zero]

theorem countOutcome_eq (t : Tally) (outcome : Outcome) :
    t.countOutcome outcome = t + (0 : Tally).countOutcome outcome := by
  cases outcome <;> ext <;> simp only [countOutcome, add_def, zero_def, add, add_zero, zero_add]

end ShardedDelivery.Tally
