import ShardedDelivery.Proofs.Tally
import ShardedDelivery.Proofs.Turn

/-! # What a turn adds

A turn reads neither the counters nor the journal, it only adds to them. So what has been counted
and noted before makes no difference to it: with the same site, it is the same turn. -/

namespace ShardedDelivery

variable {σ : Type}

namespace Tally

variable (t u : Tally)

theorem add_countSeen : u + t.countSeen = (u + t).countSeen := by
  ext <;> simp only [countSeen, add_def, add, add_assoc]

theorem add_countOwned : u + t.countOwned = (u + t).countOwned := by
  rw [countOwned_eq, countOwned_eq (u + t), add_assoc]

theorem add_countRollback : u + t.countRollback = (u + t).countRollback := by
  rw [countRollback_eq, countRollback_eq (u + t), add_assoc]

theorem add_countOutcome (outcome : Outcome) :
    u + t.countOutcome outcome = (u + t).countOutcome outcome := by
  rw [countOutcome_eq, countOutcome_eq (u + t), add_assoc]

end Tally

namespace Scene

/-- The scene, where all this had been noted before. -/
def after (s : Scene σ) (past : List Entry) : Scene σ := { s with journal := past ++ s.journal }

variable (s : Scene σ) (past : List Entry)

/-- A scene is its site, after what has been noted. -/
theorem after_journal : ({ toSite := s.toSite } : Scene σ).after s.journal = s := by
  simp [after]

theorem note_after (entry : Entry) : (s.after past).note entry = (s.note entry).after past := by
  simp [after, note]

theorem log_after (line : Line) : (s.after past).log line = (s.log line).after past :=
  s.note_after past _

theorem noteEnd_after (c : Call) (result : Except Crash c.Reply) :
    (s.after past).noteEnd c result = (s.noteEnd c result).after past := by
  cases result with
  | ok reply => exact s.note_after past _
  | error crash => rfl

theorem answered_after (c : Call) (result : Except Crash c.Reply) (site : Site σ) :
    (s.after past).answered c result site = (s.answered c result site).after past := by
  rw [answered, show (s.after past).books = s.books from rfl, note_after]
  exact ((s.note (.called c s.books)).moveTo site).noteEnd_after past c result

end Scene

/-- A run makes the same of its plan, whatever has been counted and noted before. -/
theorem Plan.run_after (plan : Plan) (e : Environment σ) (t u : Tally) (s : Scene σ)
    (past : List Entry) :
    plan.run e (u + t) (s.after past) =
      (plan.run e t s).map id (Prod.map (u + ·) (Scene.after · past)) := by
  induction plan generalizing t s with
  | finish outcome => rfl
  | log line rest ih => simpa only [run, Scene.log_after] using ih t (s.log line)
  | edit change rest ih => exact ih t (s.edit change)
  | countRollback rest ih =>
      simpa only [run, Tally.add_countRollback] using ih t.countRollback s
  | check q rest ih => exact ih _ t s
  | call c rest ih =>
      -- the callee sees the site, which is the same
      have hanswer : e.answer c (s.after past).toSite = e.answer c s.toSite := rfl
      rcases ha : e.answer c s.toSite with ⟨(crash | reply) | mark, site⟩
      · rw [run_call_crash ha, run_call_crash (hanswer.trans ha), Scene.answered_after]
        rfl
      · rw [run_call_ok ha, run_call_ok (hanswer.trans ha), Scene.answered_after]
        exact ih reply t _
      · rw [run_call_waiting ha, run_call_waiting (hanswer.trans ha),
          show (s.after past).books = s.books from rfl, Scene.note_after]
        rfl

/-- The handler, with so much counted before. -/
def Handler.credit (h : Handler) (u : Tally) : Handler := { h with tally := u + h.tally }

/-- The turn, with so much counted and noted before. -/
def Turn.after (turn : Turn σ) (u : Tally) (past : List Entry) : Turn σ :=
  { turn with handler := turn.handler.credit u, scene := turn.scene.after past }

namespace Handler

variable (h : Handler) (e : Environment σ) (slot : Slot) (sequence : Nat) (last : Bool) (u : Tally)
  (s y : Scene σ) (past : List Entry)

/-- What the handler notes of an event before it looks into the slot. -/
def batchEnd : List Entry := if last then [.logged (.endOfBatch h.ordinal sequence)] else []

theorem journal_see_eq :
    (h.see sequence last s).2.journal = s.journal ++ h.batchEnd sequence last := by
  cases last with
  | true => rfl
  | false => simp [see, batchEnd]

theorem see_after :
    (h.credit u).see sequence last (s.after past) =
      (h.see sequence last s).map (credit · u) (Scene.after · past) := by
  have htally : (h.credit u).tally.countSeen = u + h.tally.countSeen :=
    (Tally.add_countSeen h.tally u).symm
  simp only [see, htally, Scene.log_after]
  split <;> rfl

theorem conclude_after (d : Delivery) (course : Plan.Ending × Tally × Scene σ) :
    (h.credit u).conclude d (course.map id (Prod.map (u + ·) (Scene.after · past))) =
      (h.conclude d course).after u past := by
  rcases course with ⟨outcome | crash | ⟨c, mark, rest⟩, t, s⟩
  · simp only [conclude, Prod.map, id_eq, ← Tally.add_countOutcome]
    rfl
  · simp only [conclude, contain, Prod.map, id_eq, ← Tally.add_countOutcome, Scene.log_after]
    rfl
  · rfl

/-- A handler takes the same turn, whatever has been counted and noted before. -/
theorem handle_after :
    (h.credit u).handle e slot sequence last (s.after past) =
      (h.handle e slot sequence last s).after u past := by
  have hsee := h.see_after sequence last u s past
  cases hclaim : h.claim? slot with
  | none =>
      have hforeign : (h.credit u).claim? slot = none := hclaim
      rw [handle_of_foreign hclaim, handle_of_foreign hforeign, hsee]
      simp only [Turn.after, Prod.map, Turn.mk.injEq, and_true]
      exact congrArg Prod.fst hsee
  | some d =>
      have hown : (h.credit u).claim? slot = some d := hclaim
      rw [handle_of_claim hclaim, handle_of_claim hown, ← conclude_after]
      congr 1
      rw [course, hsee, course, ← Plan.run_after, Tally.add_countOwned, Tally.add_countSeen]
      rfl

/-- All that a turn depends on is the site. -/
theorem handle_congr (hsite : s.toSite = y.toSite) :
    (h.handle e slot sequence last s).handler = (h.handle e slot sequence last y).handler ∧
      (h.handle e slot sequence last s).slot = (h.handle e slot sequence last y).slot ∧
      (h.handle e slot sequence last s).scene.toSite =
        (h.handle e slot sequence last y).scene.toSite ∧
      (h.handle e slot sequence last s).result = (h.handle e slot sequence last y).result := by
  have hbare (z : Scene σ) : h.handle e slot sequence last z =
      (h.handle e slot sequence last { toSite := z.toSite }).after 0 z.journal := by
    rw [← handle_after, Scene.after_journal]
    simp [credit]
  rw [hbare s, hbare y, hsite]
  exact ⟨rfl, rfl, rfl, rfl⟩

end Handler

end ShardedDelivery
