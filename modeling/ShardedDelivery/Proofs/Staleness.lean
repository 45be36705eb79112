import ShardedDelivery.Proofs.Conservation
import ShardedDelivery.Proofs.Rollback

/-! # Stale messages

A message that is stale when its handler comes to it is taken back, and is never sent, requeued or
counted as sent. Whether an earlier stage failed on the delivery is looked at first: then the
message goes to the dead letters all the same, if it has such a queue to go to. -/

namespace ShardedDelivery

variable {σ : Type}

/-- The books that a callee found. -/
def Entry.found? : Entry → Option Books
  | .called _ found => some found
  | _ => none

/-! What is logged is neither a call nor seen by a callee. -/

theorem Entry.findSome?_found?_logged (lines : List Line) :
    (lines.map logged).findSome? found? = none := by
  induction lines with
  | nil => rfl
  | cons line lines ih => exact ih

theorem Entry.filterMap_call?_logged (lines : List Line) :
    (lines.map logged).filterMap call? = [] := by
  induction lines with
  | nil => rfl
  | cons line lines ih => exact ih

/-- A call that neither sends nor requeues anything and counts no send, and moves a message to the
dead letters only if that is allowed. -/
def Call.Withholds (movable : Prop) (c : Call) : Prop :=
  c.send? = none ∧ (∀ m, c ≠ .requeue m) ∧ c ≠ .count .sent ∧
    ∀ m destination queue, c = .moveToDeadLetters m destination queue → movable

namespace Scene

/-- The books before any callee since an earlier scene could change them: as the first one found
them, or as they are if none was called. -/
def untouched (s earlier : Scene σ) : Books :=
  ((s.since earlier).findSome? Entry.found?).getD s.books

theorem untouched_eq {s earlier : Scene σ} {entries : List Entry}
    (h : s.journal = earlier.journal ++ entries) :
    s.untouched earlier = (entries.findSome? Entry.found?).getD s.books := by
  rw [untouched, since, h, List.drop_left]

end Scene

namespace Plan

variable {e : Environment σ} {queue : String} {d : Delivery} {failed : Bool} {t : Tally}
  {s : Scene σ}

/-- Whatever callees do, a plan that coasts makes only such calls, and leaves the books to them. -/
theorem Coasts.entries {asks : Call → Prop} {ends : Outcome → Prop} {plan : Plan}
    (h : plan.Coasts asks ends) (e : Environment σ) (t : Tally) (s : Scene σ) :
    ∃ entries, (plan.run e t s).2.2.journal = s.journal ++ entries ∧
      (∀ c ∈ entries.filterMap Entry.call?, asks c) ∧
      (entries.findSome? Entry.found?).getD (plan.run e t s).2.2.books = s.books := by
  induction plan generalizing s with
  | finish outcome => exact ⟨[], by simp [run], by simp, by simp [run]⟩
  | log line rest ih =>
      obtain ⟨entries, hjournal, hasks, hbooks⟩ := ih h (s.log line)
      refine ⟨.logged line :: entries, ?_, by simpa [Entry.call?] using hasks, hbooks⟩
      exact hjournal.trans (by simp [Scene.log, Scene.note])
  | edit change rest ih => exact h.elim
  | countRollback rest ih => exact h.elim
  | check q rest ih => exact ih _ (h _) s
  | call c rest ih =>
      obtain ⟨hc, hrest⟩ := h
      rcases ha : e.answer c s.toSite with ⟨(crash | reply) | mark, site⟩
      · rw [run_call_crash ha]
        exact ⟨[.called c s.books], rfl, by simpa [Entry.call?] using hc, rfl⟩
      · rw [run_call_ok ha]
        obtain ⟨entries, hjournal, hasks, -⟩ :=
          ih reply (hrest reply) (s.answered c (.ok reply) site)
        refine ⟨.called c s.books :: .returned c (c.accepted reply) :: entries, ?_, ?_, rfl⟩
        · rw [hjournal]
          simp [Scene.answered, Scene.noteEnd, Scene.note, Scene.moveTo]
        · simpa [Entry.call?] using ⟨hc, by simpa [Entry.call?] using hasks⟩
      · rw [run_call_waiting ha]
        exact ⟨[.called c s.books], rfl, by simpa [Entry.call?] using hc, rfl⟩

/-- What is done about a stale message after it was taken back. -/
def lapse (queue : String) (d : Delivery) (failed : Bool) : Plan :=
  if failed then deadLetter queue d.message
  else trace .staleDiscarded d.message (finish (.dropped .stale))

/-- The delivery of a stale message is taken back before anything else is done. -/
theorem run_dispatch_of_stale (hstale : s.books.isStale d.message = true) :
    (dispatch queue d failed).run e t s =
      (lapse queue d failed).run e t.countRollback (s.takeBack d) := by
  cases failed with
  | true => rfl
  | false =>
      have hholds : (Query.stale d.message).holds s.books = true := hstale
      simp only [dispatch, lapse, Bool.false_eq_true, if_false, run, hholds]
      rfl

theorem coasts_lapse : (lapse queue d failed).Coasts
    (Call.Withholds (failed = true ∧ d.message.kind = .queue))
    (fun outcome => outcome ≠ .delivered ∧ outcome ≠ .requeued) := by
  unfold lapse deadLetter
  split
  · next hfailed =>
      split
      · exact ⟨nofun, nofun⟩
      · next htopic =>
          have hkind : d.message.kind = .queue := by
            cases hk : d.message.kind with
            | queue => rfl
            | topic => simp [Message.isTopic, hk] at htopic
          refine ⟨⟨rfl, nofun, nofun, fun _ _ _ _ => ⟨hfailed, hkind⟩⟩, fun reply => ?_⟩
          cases reply with
          | ok _ =>
              exact ⟨⟨rfl, nofun, nofun, nofun⟩,
                fun _ => ⟨⟨rfl, nofun, nofun, nofun⟩, fun _ => ⟨nofun, nofun⟩⟩⟩
          | error _ => exact ⟨nofun, nofun⟩
  · exact ⟨⟨rfl, nofun, nofun, nofun⟩, fun _ => ⟨nofun, nofun⟩⟩

end Plan

/-- In this turn from a scene, a delivery was taken back before any callee had a say, and nothing
came of its message but a move to the dead letters where that is allowed. -/
structure Turn.Withholds (turn : Turn σ) (h : Handler) (d : Delivery) (movable : Prop)
    (s : Scene σ) : Prop where
  /-- The event is reported, and neither as delivered nor as requeued. -/
  reported : ∃ outcome, turn.result = .reported ⟨d.message.id, d.subscription.channel, outcome⟩ ∧
    outcome ≠ .delivered ∧ outcome ≠ .requeued
  slot : turn.slot = .empty
  calls : ∃ calls, turn.scene.calls = s.calls ++ calls ∧ ∀ c ∈ calls, c.Withholds movable
  /-- The message is no longer scheduled for the channel, nor in flight on the subscription, and one
  more failure is counted. -/
  takenBack : s.books.TakesBack d (turn.scene.untouched s)
  rollbacks : turn.handler.tally.rollbacks = h.tally.rollbacks + 1

namespace Handler

variable {h : Handler} {e : Environment σ} {slot : Slot} {d : Delivery} {s : Scene σ}

/-- Seeing an event adds a line at most. -/
theorem journal_see (h : Handler) (sequence : Nat) (last : Bool) (s : Scene σ) :
    ∃ lines : List Line,
      (h.see sequence last s).2.journal = s.journal ++ lines.map Entry.logged := by
  cases last with
  | true => exact ⟨[.endOfBatch h.ordinal sequence], rfl⟩
  | false => exact ⟨[], by simp [see]⟩

/-- What the handler makes of the end of a delivery adds a line at most. -/
theorem exists_journal_conclude (h : Handler) (d : Delivery)
    (course : Plan.Ending × Tally × Scene σ) :
    ∃ lines : List Line,
      (h.conclude d course).scene.journal = course.2.2.journal ++ lines.map Entry.logged := by
  rcases course with ⟨_ | crash | _, t, y⟩
  · exact ⟨[], by simp [conclude]⟩
  · exact ⟨[.crashed d.message.id d.subscription.channel crash.text], rfl⟩
  · exact ⟨[], by simp [conclude]⟩

/-- A course that does not wait ends in a report. -/
theorem reported_conclude {ends : Outcome → Prop} {course : Plan.Ending × Tally × Scene σ}
    (h : Handler) (d : Delivery) (hunhandled : ends .unhandled)
    (hends : (∃ outcome, ends outcome ∧ course.1 = .finished outcome) ∨
      ∃ crash, course.1 = .crashed crash) :
    ∃ outcome, ends outcome ∧
      (h.conclude d course).handler = { h with tally := course.2.1.countOutcome outcome } ∧
      (h.conclude d course).slot = .empty ∧
      (h.conclude d course).result =
        .reported ⟨d.message.id, d.subscription.channel, outcome⟩ := by
  rcases course with ⟨ending, t, y⟩
  obtain ⟨outcome, houtcome, rfl⟩ | ⟨crash, rfl⟩ := hends
  · exact ⟨outcome, houtcome, rfl, rfl, rfl⟩
  · exact ⟨.unhandled, hunhandled, rfl, rfl, rfl⟩

/-- A delivery that was taken back first, with callees that had no say until then. -/
theorem withholds_of_course {movable : Prop} (hclaim : h.claim? slot = some d) {sequence : Nat}
    {last : Bool} {plan : Plan}
    (hplan : plan.Coasts (Call.Withholds movable)
      (fun outcome => outcome ≠ .delivered ∧ outcome ≠ .requeued))
    (hcourse : h.course e d slot.failed sequence last s =
      plan.run e h.tally.countSeen.countOwned.countRollback
        ((h.see sequence last s).2.takeBack d)) :
    (h.handle e slot sequence last s).Withholds h d movable s := by
  rw [handle_of_claim hclaim, hcourse]
  generalize hy : (h.see sequence last s).2.takeBack d = y
  generalize ht : h.tally.countSeen.countOwned.countRollback = t
  have hbooks : y.books = (s.toSite.takeBack d).books := by
    rw [← h.toSite_see sequence last s, ← hy]
    rfl
  have hcalls : y.calls = s.calls := hy ▸ h.calls_see sequence last s
  obtain ⟨before, hbefore⟩ : ∃ lines : List Line,
      y.journal = s.journal ++ lines.map Entry.logged := hy ▸ h.journal_see sequence last s
  obtain ⟨entries, hentries, hasks, hfound⟩ := hplan.entries e t y
  obtain ⟨htally, hending⟩ := hplan.ending (fun c hc => hc.1) e t y
  obtain ⟨after, hafter⟩ := h.exists_journal_conclude d (plan.run e t y)
  have hjournal : (h.conclude d (plan.run e t y)).scene.journal =
      s.journal ++ (before.map Entry.logged ++ entries ++ after.map Entry.logged) := by
    rw [hafter, hentries, hbefore]
    simp
  have hleft : (h.conclude d (plan.run e t y)).scene.books = (plan.run e t y).2.2.books :=
    congrArg Site.books (h.toSite_conclude d (plan.run e t y))
  obtain ⟨outcome, hnot, hhandler, hslot, hresult⟩ :=
    h.reported_conclude d ⟨by decide, by decide⟩ hending
  refine ⟨⟨outcome, hresult, hnot⟩, hslot, ⟨entries.filterMap Entry.call?, ?_, hasks⟩, ?_, ?_⟩
  · simp only [Scene.calls, hjournal, List.filterMap_append, Entry.filterMap_call?_logged,
      List.nil_append, List.append_nil]
  · have huntouched : (h.conclude d (plan.run e t y)).scene.untouched s =
        (s.toSite.takeBack d).books := by
      rw [Scene.untouched_eq hjournal, hleft, ← hbooks, ← hfound]
      simp only [List.findSome?_append, Entry.findSome?_found?_logged, Option.none_or,
        Option.or_none]
    rw [huntouched]
    exact Books.takesBack_rollback _ d
  · rw [hhandler, htally, ← ht]
    exact Tally.rollbacks_countOutcome _ outcome

/-- A stale message is taken back and never sent, requeued or counted as sent. It is moved to the
dead letters only if an earlier stage failed on the delivery and it is a queue message. -/
theorem withholds_stale (e : Environment σ) (hslot : slot.delivery = some d) (howns : h.owns slot)
    (hstale : s.books.isStale d.message = true) (sequence : Nat) (last : Bool) :
    (h.handle e slot sequence last s).Withholds h d
      (slot.failed = true ∧ d.message.kind = .queue) s := by
  obtain ⟨d', hclaim⟩ := owns_iff.mp howns
  obtain rfl : d = d' := Option.some.inj (hslot.symm.trans (claim?_eq_some_iff.mp hclaim).1)
  have hseen : (h.see sequence last s).2.books.isStale d.message = true := by
    rw [h.toSite_see sequence last s]
    exact hstale
  exact withholds_of_course hclaim Plan.coasts_lapse (Plan.run_dispatch_of_stale hseen)

namespace Rehearsal

/-- Meanwhile the message in flight has become stale, and its tracer is broken. -/
def lapsed : Scene Scripted.Cast where
  books := ({} : Books).applyAll
    (Edit.inFlight delivery.message delivery.subscription ++ [.setStale delivery.message true])
  outside := { tracerFault := .crashing }

theorem isStale_lapsed : lapsed.books.isStale delivery.message = true := by
  decide

theorem owns_holding (failed : Bool) : handler.owns (.holding delivery failed) := by
  cases failed <;> decide

end Rehearsal

/-- The tracer crashes when it is told of the discarded message, which was taken back before. -/
theorem withholds_stale_rehearsal :
    let slot := Slot.holding Rehearsal.delivery false
    let turn := Rehearsal.handler.handle (Scripted.environment true) slot 0 true Rehearsal.lapsed
    turn.scene.calls = [.trace .staleDiscarded Rehearsal.delivery.message] ∧
      turn.result = .reported ⟨⟨7⟩, ⟨0, 0⟩, .unhandled⟩ ∧
      turn.Withholds Rehearsal.handler Rehearsal.delivery
        (slot.failed = true ∧ Rehearsal.delivery.message.kind = .queue) Rehearsal.lapsed :=
  ⟨by decide, by decide, withholds_stale _ rfl (Rehearsal.owns_holding false)
    Rehearsal.isStale_lapsed 0 true⟩

/-- A stale queue message is moved to the dead letters if an earlier stage failed on it. -/
theorem moved_stale_failed :
    let slot := Slot.holding Rehearsal.delivery true
    let turn := Rehearsal.handler.handle (Scripted.environment true) slot 0 true Rehearsal.lapsed
    Rehearsal.handler.owns slot ∧ Rehearsal.lapsed.books.isStale Rehearsal.delivery.message = true ∧
      .moveToDeadLetters Rehearsal.delivery.message "orders" "dead" ∈ turn.scene.calls ∧
      ¬ turn.Withholds Rehearsal.handler Rehearsal.delivery False Rehearsal.lapsed := by
  intro slot turn
  have hmoved : .moveToDeadLetters Rehearsal.delivery.message "orders" "dead" ∈
      turn.scene.calls := by
    decide
  refine ⟨Rehearsal.owns_holding true, Rehearsal.isStale_lapsed, hmoved, fun hwithholds => ?_⟩
  obtain ⟨calls, hcalls, hall⟩ := hwithholds.calls
  have hnone : Rehearsal.lapsed.calls = [] := rfl
  rw [hcalls, hnone, List.nil_append] at hmoved
  exact (hall _ hmoved).2.2.2 _ _ _ rfl

end Handler

end ShardedDelivery
