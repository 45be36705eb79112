import ShardedDelivery.Proofs.Scene
import ShardedDelivery.Scripted

/-! # Turns

A handler that is shown a slot either passes on it or takes the delivery out and sees it through.
How that goes is the course of the delivery; what the handler makes of it depends on nothing but
how the course ends. -/

namespace ShardedDelivery

/-- Every report that was made came out or was lost. -/
theorem Upshot.countP_made {α : Type} (upshot : α → Upshot) (p : Report → Bool) (l : List α) :
    (l.filterMap fun a => (upshot a).made?).countP p =
      (l.filterMap fun a => (upshot a).report?).countP p +
        (l.filterMap fun a => (upshot a).lost?).countP p := by
  induction l with
  | nil => rfl
  | cons a l ih =>
      simp only [List.filterMap_cons]
      cases upshot a with
      | reported report =>
          change (report :: _).countP p = (report :: _).countP p + _
          rw [List.countP_cons, List.countP_cons, ih]
          exact Nat.add_right_comm ..
      | lost report =>
          change (report :: _).countP p = _ + (report :: _).countP p
          rw [List.countP_cons, List.countP_cons, ih]
          exact Nat.add_assoc ..
      | _ => exact ih

namespace Handler

variable {σ : Type} {h : Handler} {e : Environment σ} {slot : Slot} {d : Delivery} {s : Scene σ}

/-- How a delivery goes that the handler has taken out of a slot. -/
def course (h : Handler) (e : Environment σ) (d : Delivery) (failed : Bool) (sequence : Nat)
    (last : Bool) (s : Scene σ) : Plan.Ending × Tally × Scene σ :=
  (Plan.dispatch h.queue d failed).run e h.tally.countSeen.countOwned (h.see sequence last s).2

/-- What the handler makes of the end of a delivery. -/
def conclude (h : Handler) (d : Delivery) : Plan.Ending × Tally × Scene σ → Turn σ
  | (.finished outcome, t, s) =>
      ⟨{ h with tally := t.countOutcome outcome }, .empty, s,
        .reported ⟨d.message.id, d.subscription.channel, outcome⟩⟩
  | (.crashed crash, t, s) =>
      ⟨{ h with tally := t.countOutcome .unhandled }, .empty, contain d crash s,
        .reported ⟨d.message.id, d.subscription.channel, .unhandled⟩⟩
  | (.waiting .., t, s) => ⟨{ h with tally := t }, .empty, s, .waiting⟩

section Conclusions

variable (h : Handler) (d : Delivery) (course : Plan.Ending × Tally × Scene σ)

@[simp] theorem toSite_conclude : (h.conclude d course).scene.toSite = course.2.2.toSite := by
  rcases course with ⟨_ | _ | _, t, s⟩ <;> rfl

@[simp] theorem calls_conclude : (h.conclude d course).scene.calls = course.2.2.calls := by
  rcases course with ⟨_ | _ | _, t, s⟩ <;> simp [conclude, contain]

@[simp] theorem returns_conclude : (h.conclude d course).scene.returns = course.2.2.returns := by
  rcases course with ⟨_ | _ | _, t, s⟩ <;> simp [conclude, contain]

end Conclusions

theorem claim?_eq_some_iff : h.claim? slot = some d ↔ slot.delivery = some d ∧ h.serves d := by
  simp [claim?, Option.filter_eq_some_iff]

theorem owns_iff : h.owns slot ↔ ∃ d, h.claim? slot = some d := by
  simp [owns, claim?_eq_some_iff, Option.any_eq_true]

/-- A slot that the handler does not own is only seen. -/
theorem handle_of_foreign (hclaim : h.claim? slot = none) (sequence : Nat) (last : Bool) :
    h.handle e slot sequence last s =
      ⟨{ h with tally := h.tally.countSeen }, slot, (h.see sequence last s).2, .foreign⟩ := by
  have hseen : (h.see sequence last s).1.claim? slot = none := hclaim
  simp only [handle, hseen]
  rfl

/-- A delivery that the handler owns takes its course. -/
theorem handle_of_claim (hclaim : h.claim? slot = some d) (sequence : Nat) (last : Bool) :
    h.handle e slot sequence last s = h.conclude d (h.course e d slot.failed sequence last s) := by
  have hseen : (h.see sequence last s).1.claim? slot = some d := hclaim
  have hcourse : (Plan.dispatch (h.see sequence last s).1.take.queue d slot.failed).run e
      (h.see sequence last s).1.take.tally (h.see sequence last s).2 =
        h.course e d slot.failed sequence last s := rfl
  rcases hc : h.course e d slot.failed sequence last s with ⟨ending, t, y⟩
  rw [hc] at hcourse
  simp only [handle, hseen, deliver, hcourse]
  cases ending <;> rfl

/-! ## A rehearsal

One of two handlers, and an event of its own: a message in flight to a durable subscriber, whose
sends follow a script. -/

namespace Rehearsal

def handler : Handler := .new 0 2 "dead"

def delivery : Delivery := ⟨⟨0, ⟨0, 0⟩, true⟩, ⟨0, ⟨7⟩, "orders", .queue⟩, {}⟩

def scene (cue : Scripted.Cue) : Scene Scripted.Cast where
  books := ({} : Books).applyAll (Edit.inFlight delivery.message delivery.subscription)
  outside := { parts := ({} : Table _ _).set delivery.subscription { cues := [cue] } }

/-- Meanwhile, the transport gets a permit. -/
def permit (d : Delivery) (_ : Nat) (s : Site Scripted.Cast) : Option (Site Scripted.Cast) :=
  some { s with outside := s.outside.permit d.subscription 1 }

theorem claim?_holding : handler.claim? (.holding delivery false) = some delivery := by
  decide

end Rehearsal

end Handler

end ShardedDelivery
