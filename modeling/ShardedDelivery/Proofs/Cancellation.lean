import ShardedDelivery.Proofs.Plan.Increments
import ShardedDelivery.Proofs.Rollback
import ShardedDelivery.Proofs.Seclusion
import ShardedDelivery.Proofs.Solo

/-! # Cancellation

A turn whose send still waits may be given up. All that there is to see of it then is that the
delivery was handed to its transport. Afterwards the handler goes on as if it had never got the
event, but for two counters. -/

namespace ShardedDelivery

variable {σ : Type}

/-! ## The hand-off -/

/-- All that a turn from a scene has done is to hand a delivery to its transport, which waits. -/
structure Turn.HandsOff (turn : Turn σ) (h : Handler) (e : Environment σ) (d : Delivery)
    (sequence : Nat) (last : Bool) (s : Scene σ) : Prop where
  waits : ∃ mark, (e.send d s.toSite).1 = .waiting mark
  /-- The event was counted as seen and as owned, and nothing else was counted. -/
  handler : turn.handler = { h with
    tally := { h.tally with seen := h.tally.seen + 1, owned := h.tally.owned + 1 } }
  unreported : turn.result.report? = none
  calls : turn.scene.calls = s.calls ++ [.send d]
  /-- The transport found the books as they were before, and nothing else was noted. -/
  journal : turn.scene.journal =
    s.journal ++ h.batchEnd sequence last ++ [.called (.send d) s.books]
  /-- Nothing was done to the site but by the transport, -/
  site : turn.scene.toSite = (e.send d s.toSite).2
  /-- so nothing was taken back, if the transport leaves what is in flight as it is. -/
  flight : s.books.SameFlight (e.send d s.toSite).2.books → s.books.SameFlight turn.scene.books
  emptied : turn.slot = .empty

/-! ## What comes later -/

/-- An event, the callees that it finds, and what others have done to the site before it. -/
structure Occasion (σ : Type) extends Event where
  callees : Environment σ
  others : Site σ → Site σ := id

/-- Two turns, with different pasts, differ in nothing but that one of the handlers has counted one
more event as seen and as owned. -/
structure Turn.Resembles (turn turn' : Turn σ) (past past' : List Entry) : Prop where
  handler : turn.handler = { turn'.handler with
    tally := { turn'.handler.tally with
      seen := turn'.handler.tally.seen + 1
      owned := turn'.handler.tally.owned + 1 } }
  slot : turn.slot = turn'.slot
  result : turn.result = turn'.result
  site : turn.scene.toSite = turn'.scene.toSite
  /-- The same was called, returned and logged since. -/
  noted : ∃ entries,
    turn.scene.journal = past ++ entries ∧ turn'.scene.journal = past' ++ entries

namespace Handler

/-- Shows the handler an event, after others have been at the site. -/
def meet (h : Handler) (x : Occasion σ) (s : Scene σ) : Turn σ :=
  h.attend x.callees x.toEvent (s.moveTo (x.others s.toSite))

/-- The turns for events that come one after another. A send that still waits is given up. -/
def meetAll (h : Handler) (s : Scene σ) : List (Occasion σ) → List (Turn σ)
  | [] => []
  | x :: later => h.meet x s :: (h.meet x s).handler.meetAll (h.meet x s).scene later

variable {h : Handler} {e : Environment σ} {slot : Slot} {d : Delivery} {s : Scene σ}

/-- One more event seen and owned makes no difference to the next turn. -/
theorem meet_resembles (h : Handler) (x : Occasion σ) (past past' entries : List Entry)
    (site : Site σ) :
    ({ h with tally := h.tally.countSeen.countOwned }.meet x ⟨site, past ++ entries⟩).Resembles
      (h.meet x ⟨site, past' ++ entries⟩) past past' := by
  have htally (t : Tally) : (0 : Tally).countSeen.countOwned + t = t.countSeen.countOwned := by
    rw [add_comm, Tally.add_countOwned, Tally.add_countSeen, add_zero]
  have hcredit : ({ h with tally := h.tally.countSeen.countOwned } : Handler) =
      h.credit (0 : Tally).countSeen.countOwned := by
    rw [credit, htally]
  have hmeet (u : Tally) (journal : List Entry) :
      (h.credit u).meet x ⟨site, journal ++ entries⟩ =
        (h.meet x ⟨site, entries⟩).after u journal :=
    h.handle_after x.callees x.slot x.sequence x.last u ⟨x.others site, entries⟩ journal
  have hzero : h = h.credit 0 := by simp [credit]
  rw [hcredit, hmeet]
  nth_rewrite 2 [hzero]
  rw [hmeet]
  refine ⟨?_, rfl, rfl, rfl, (h.meet x ⟨site, entries⟩).scene.journal, rfl, rfl⟩
  simp only [Turn.after, credit, zero_add, htally]
  rfl

/-- Nor does it to the turns after that. -/
theorem meetAll_resembles (h : Handler) (later : List (Occasion σ))
    (past past' entries : List Entry) (site : Site σ) :
    List.Forall₂ (Turn.Resembles · · past past')
      ({ h with tally := h.tally.countSeen.countOwned }.meetAll ⟨site, past ++ entries⟩ later)
      (h.meetAll ⟨site, past' ++ entries⟩ later) := by
  induction later generalizing h entries site with
  | nil => exact .nil
  | cons x later ih =>
      have hturn := h.meet_resembles x past past' entries site
      refine .cons hturn ?_
      obtain ⟨hhandler, -, -, hsite, noted, hnoted, hnoted'⟩ := hturn
      generalize meet _ x ⟨site, past ++ entries⟩ = turn at *
      generalize h.meet x ⟨site, past' ++ entries⟩ = turn' at *
      have hscene : turn.scene = ⟨turn'.scene.toSite, past ++ noted⟩ := by rw [← hsite, ← hnoted]
      have hscene' : turn'.scene = ⟨turn'.scene.toSite, past' ++ noted⟩ := by rw [← hnoted']
      rw [hhandler, hscene, hscene']
      exact ih turn'.handler noted turn'.scene.toSite

/-- A delivery that waits has been handed to its transport, and nothing else was done about it. -/
theorem handsOff (hclaim : h.claim? slot = some d) {sequence : Nat} {last : Bool}
    (hwaiting : (h.handle e slot sequence last s).result = .waiting) :
    (h.handle e slot sequence last s).HandsOff h e d sequence last s := by
  have hgoes : Plan.Goes e h.queue d h.tally.countSeen.countOwned (h.see sequence last s).2
      (h.course e d slot.failed sequence last s) := Plan.goes_dispatch ..
  rw [handle_of_claim hclaim] at hwaiting ⊢
  rcases hcourse : h.course e d slot.failed sequence last s with ⟨_ | _ | ⟨c, mark, rest⟩, t, y⟩
  · simp [hcourse, conclude] at hwaiting
  · simp [hcourse, conclude] at hwaiting
  · rw [hcourse] at hgoes
    obtain ⟨site, hsend, heq⟩ := hgoes.handOff
    cases heq
    have hbooks : (h.see sequence last s).2.books = s.books := by rw [toSite_see]
    rw [toSite_see] at hsend
    refine ⟨⟨mark, by rw [hsend]⟩, rfl, rfl, ?_, ?_, ?_, ?_, rfl⟩
    · rw [calls_conclude, ← h.calls_see sequence last s]
      exact Scene.calls_note_called _ _ _
    · rw [← journal_see_eq, ← hbooks]
      rfl
    · rw [hsend]
      rfl
    · rw [hsend]
      exact id

/-- A turn whose send waits is given up. All it has done is to hand the delivery over, once. After
that, wherever the site has got to, the handler deals with all events as one that never got this
event, which has seen and owned one event less. -/
theorem forgets_waiting (hclaim : h.claim? slot = some d) (sequence : Nat) (last : Bool)
    (hwaiting : (h.handle e slot sequence last s).result = .waiting) :
    let turn := h.handle e slot sequence last s
    turn.HandsOff h e d sequence last s ∧ ∀ (site : Site σ) (later : List (Occasion σ)),
      List.Forall₂ (Turn.Resembles · · turn.scene.journal s.journal)
        (turn.handler.meetAll (turn.scene.moveTo site) later)
        (h.meetAll (s.moveTo site) later) := by
  intro turn
  have hhandsOff : turn.HandsOff h e d sequence last s := handsOff hclaim hwaiting
  refine ⟨hhandsOff, fun site later => ?_⟩
  have hlater := h.meetAll_resembles later turn.scene.journal s.journal [] site
  simp only [List.append_nil] at hlater
  rw [hhandsOff.handler]
  exact hlater

namespace Rehearsal

/-- The event comes once more, when the transport has got a permit. -/
def again : Occasion Scripted.Cast where
  slot := .holding delivery false
  sequence := 1
  last := true
  callees := Scripted.environment true
  others site := { site with outside := site.outside.permit delivery.subscription 1 }

end Rehearsal

/-- The first send waits for a permit and is given up. The second is sent, by a handler that has
seen and owned two events, but has sent no more than one. -/
theorem forgets_waiting_rehearsal :
    let s := Rehearsal.scene { waits := true }
    let turn := Rehearsal.handler.handle (Scripted.environment true)
      (.holding Rehearsal.delivery false) 0 true s
    let next := turn.handler.meet Rehearsal.again turn.scene
    let fresh := Rehearsal.handler.meet Rehearsal.again (s.moveTo turn.scene.toSite)
    turn.HandsOff Rehearsal.handler (Scripted.environment true) Rehearsal.delivery 0 true s ∧
      next.Resembles fresh turn.scene.journal s.journal ∧
      turn.scene.calls = [.send Rehearsal.delivery] ∧
      next.result = .reported ⟨⟨7⟩, ⟨0, 0⟩, .delivered⟩ ∧
      next.handler.tally = { seen := 2, owned := 2, delivered := 1 } := by
  intro s turn next fresh
  obtain ⟨hhandsOff, hlater⟩ : turn.HandsOff _ _ _ _ _ _ ∧ _ :=
    forgets_waiting Rehearsal.claim?_holding 0 true rfl
  have hnext := hlater turn.scene.toSite [Rehearsal.again]
  exact ⟨hhandsOff, (List.forall₂_cons.mp hnext).1, by decide, by decide, by decide⟩

end Handler

end ShardedDelivery
