import ShardedDelivery.Proofs.Turn

/-! # The phases of a delivery

A delivery is tried at most once, and taken back at most once. What follows either of these edits
nothing, counts no rollback and sends nothing any more. -/

namespace ShardedDelivery

variable {σ : Type}

/-- The message that a call requeues, moves away or discards. -/
def Call.removes? : Call → Option Message
  | .requeue m | .moveToDeadLetters m _ _ | .trace .staleDiscarded m => some m
  | _ => none

/-- The outcomes that only a delivery has that was taken back. -/
def Outcome.isRecovery : Outcome → Bool
  | .requeued | .deadLettered | .dropped _ => true
  | .delivered | .unhandled => false

namespace Plan

/-- A plan that edits nothing and counts no rollback, makes only such calls and ends only so. -/
def Coasts (asks : Call → Prop) (ends : Outcome → Prop) : Plan → Prop
  | finish outcome => ends outcome
  | log _ rest => rest.Coasts asks ends
  | edit .. => False
  | countRollback _ => False
  | check _ rest => ∀ answer, (rest answer).Coasts asks ends
  | call c rest => asks c ∧ ∀ reply, (rest reply).Coasts asks ends

/-- What is done about a delivery that was taken back. -/
def Mends (d : Delivery) : Plan → Prop :=
  Coasts (fun c => c.send? = none ∧ ∀ m, c.removes? = some m → m = d.message) (·.isRecovery)

/-- What is done about a delivery that was accepted. -/
def Reports : Plan → Prop :=
  Coasts (fun c => c.send? = none ∧ c.removes? = none) (· = .delivered)

section Shapes

variable {queue : String} {d : Delivery}

theorem mends_deadLetter : (deadLetter queue d.message).Mends d := by
  unfold deadLetter
  split
  · rfl
  · refine ⟨by simp [Call.send?, Call.removes?], fun reply => ?_⟩
    cases reply with
    | ok _ =>
        refine ⟨by simp [Call.send?, Call.removes?], fun _ => ?_⟩
        exact ⟨by simp [Call.send?, Call.removes?], fun _ => rfl⟩
    | error _ => rfl

theorem mends_recover : (recover d).Mends d := by
  unfold recover
  split
  · refine ⟨by simp [Call.send?, Call.removes?], fun _ => ?_⟩
    exact ⟨by simp [Call.send?, Call.removes?], fun _ => rfl⟩
  · intro answer
    cases answer <;> rfl

theorem mends_discard :
    (trace .staleDiscarded d.message (finish (.dropped .stale))).Mends d :=
  ⟨by simp [Call.send?, Call.removes?], fun _ => rfl⟩

theorem reports_delivered :
    (trace .dispatched d.message (count .sent (finish .delivered))).Reports :=
  ⟨⟨rfl, rfl⟩, fun _ => ⟨⟨rfl, rfl⟩, fun _ => rfl⟩⟩

end Shapes

/-! ## Runs -/

/-- A plan that coasts leaves the tally as it is, and ends as it may unless a call crashes. -/
theorem Coasts.ending {asks : Call → Prop} {ends : Outcome → Prop} {plan : Plan}
    (h : plan.Coasts asks ends) (hasks : ∀ c, asks c → c.send? = none) (e : Environment σ)
    (t : Tally) (s : Scene σ) :
    (plan.run e t s).2.1 = t ∧
      ((∃ outcome, ends outcome ∧ (plan.run e t s).1 = .finished outcome) ∨
        ∃ crash, (plan.run e t s).1 = .crashed crash) := by
  induction plan generalizing s with
  | finish outcome => exact ⟨rfl, .inl ⟨outcome, h, rfl⟩⟩
  | log line rest ih => exact ih h (s.log line)
  | edit change rest ih => exact h.elim
  | countRollback rest ih => exact h.elim
  | check q rest ih => exact ih _ (h _) s
  | call c rest ih =>
      obtain ⟨hc, hrest⟩ := h
      rcases ha : e.answer c s.toSite with ⟨(crash | reply) | mark, site⟩
      · rw [run_call_crash ha]
        exact ⟨rfl, .inr ⟨crash, rfl⟩⟩
      · rw [run_call_ok ha]
        exact ih reply (hrest reply) _
      · obtain ⟨d, rfl⟩ := send_of_waiting (Scene.call_waiting ha)
        have hnone := hasks _ hc
        contradiction

/-- How a delivery goes, from a tally and a scene: it is taken back without having been tried, or
tried once, with what follows from how the send ends. -/
inductive Goes (e : Environment σ) (queue : String) (d : Delivery) (t : Tally) (s : Scene σ) :
    Ending × Tally × Scene σ → Prop where
  | untried {rest : Plan} (hrest : rest.Mends d) :
      Goes e queue d t s (rest.run e t.countRollback (s.takeBack d))
  | waits {mark site} (hsend : e.send d s.toSite = (.waiting mark, site)) :
      Goes e queue d t s (.waiting (.send d) mark (afterSend queue d), t,
        (s.note (.called (.send d) s.books)).moveTo site)
  | crashes {crash site} (hsend : e.send d s.toSite = (.ended (.error crash), site)) :
      Goes e queue d t s (.crashed crash, t, s.answered (.send d) (.error crash) site)
  | accepted {rest : Plan} {site} (hsend : e.send d s.toSite = (.ended (.ok (.ok ())), site))
      (hrest : rest.Reports) :
      Goes e queue d t s (rest.run e t (s.answered (.send d) (.ok (.ok ())) site))
  | unclassified {reason line site}
      (hsend : e.send d s.toSite = (.ended (.ok (.error (.unexpected reason))), site)) :
      Goes e queue d t s (.finished .unhandled, t,
        (s.answered (.send d) (.ok (.error (.unexpected reason))) site).log line)
  | refused {failure line site} {rest : Plan}
      (hsend : e.send d s.toSite = (.ended (.ok (.error failure)), site))
      (hfailure : ∀ reason, failure ≠ .unexpected reason) (hrest : rest.Mends d) :
      Goes e queue d t s (rest.run e t.countRollback
        (((s.answered (.send d) (.ok (.error failure)) site).log line).takeBack d))

theorem goes_send (e : Environment σ) (queue : String) (d : Delivery) (t : Tally) (s : Scene σ) :
    Goes e queue d t s ((call (.send d) (afterSend queue d)).run e t s) := by
  rcases hsend : e.send d s.toSite with ⟨(crash | reply) | mark, site⟩
  · rw [run_call_crash (c := .send d) hsend]
    exact .crashes hsend
  · rw [run_call_ok (c := .send d) hsend]
    cases reply with
    | ok _ => exact .accepted hsend reports_delivered
    | error failure =>
        cases failure with
        | ruleViolation reason => exact .refused hsend (by simp) mends_deadLetter
        | transient reason => exact .refused hsend (by simp) mends_recover
        | unexpected reason => exact .unclassified hsend
  · rw [run_call_waiting (c := .send d) hsend]
    exact .waits hsend

theorem goes_dispatch (e : Environment σ) (queue : String) (d : Delivery) (failed : Bool)
    (t : Tally) (s : Scene σ) : Goes e queue d t s ((dispatch queue d failed).run e t s) := by
  unfold dispatch
  split
  · exact .untried mends_deadLetter
  · rw [run]
    cases (Query.stale d.message).holds s.books with
    | true => exact .untried mends_discard
    | false =>
        simp only [run]
        cases (Query.active d.subscription).holds s.books with
        | false => exact .untried mends_recover
        | true => exact goes_send e queue d t s

/-- Only its send makes a delivery wait, and nothing but that call has been made then. -/
theorem Goes.handOff {e : Environment σ} {queue : String} {d : Delivery} {t t' : Tally}
    {s s' : Scene σ} {c : Call} {mark : Nat} {rest : c.Reply → Plan}
    (h : Goes e queue d t s (.waiting c mark rest, t', s')) :
    ∃ site, e.send d s.toSite = (.waiting mark, site) ∧
      (Ending.waiting c mark rest, t', s') = (.waiting (.send d) mark (afterSend queue d), t,
        (s.note (.called (.send d) s.books)).moveTo site) := by
  have hcoasts {asks : Call → Prop} {ends : Outcome → Prop} {plan : Plan} {t'' : Tally}
      {s'' : Scene σ} (hplan : plan.Coasts asks ends) (hasks : ∀ c, asks c → c.send? = none)
      (hrun : (Ending.waiting c mark rest, t', s') = plan.run e t'' s'') : False := by
    obtain ⟨-, ⟨outcome, -, hend⟩ | ⟨crash, hend⟩⟩ := hplan.ending hasks e t'' s'' <;>
      simp [← hrun] at hend
  generalize hcourse : (Ending.waiting c mark rest, t', s') = course at h ⊢
  cases h with
  | waits hsend =>
      cases hcourse
      exact ⟨_, hsend, rfl⟩
  | untried hrest => exact (hcoasts hrest (fun _ hc => hc.1) hcourse).elim
  | accepted _ hrest => exact (hcoasts hrest (fun _ hc => hc.1) hcourse).elim
  | refused _ _ hrest => exact (hcoasts hrest (fun _ hc => hc.1) hcourse).elim
  | crashes _ => cases hcourse
  | unclassified _ => cases hcourse

/-- What follows a send that waited is up to the reply. -/
theorem Goes.of_waiting {e : Environment σ} {queue : String} {d : Delivery} {t t' : Tally}
    {s s' : Scene σ} {mark : Nat} {rest : Except SendFailure Unit → Plan}
    (h : Goes e queue d t s (.waiting (.send d) mark rest, t', s')) :
    rest = afterSend queue d ∧ ∃ site, e.send d s.toSite = (.waiting mark, site) ∧
      s' = (s.note (.called (.send d) s.books)).moveTo site := by
  obtain ⟨site, hsend, hcourse⟩ := h.handOff
  cases hcourse
  exact ⟨rfl, site, hsend, rfl⟩

end Plan

end ShardedDelivery
