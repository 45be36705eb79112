import ShardedDelivery.Proofs.Scene

/-! # Patience

A send may wait before it is answered, and others may change the site meanwhile. The delivery then
goes on as if the transport had done all of that at once, so what holds of the runs in every
environment holds of those in which sends are answered late. -/

namespace ShardedDelivery

variable {σ : Type} {e : Environment σ} {meanwhile : Delivery → Nat → Site σ → Option (Site σ)}

/-- Callees as they are to someone who waits for them: a send that waits is tried again after what
others have done meanwhile, if they leave it time to. -/
def Environment.patient (e : Environment σ)
    (meanwhile : Delivery → Nat → Site σ → Option (Site σ)) : Environment σ :=
  { e with
    send := fun d s =>
      match e.send d s with
      | (.ended result, s) => (.ended result, s)
      | (.waiting mark, s) =>
          match (meanwhile d mark s).bind (e.resume d mark) with
          | some (result, s) => (.ended result, s)
          | none => (.waiting mark, s) }

namespace Environment

theorem answer_patient_of_ended {c : Call} {s site : Site σ} {result : Except Crash c.Reply}
    (h : e.answer c s = (.ended result, site)) :
    (e.patient meanwhile).answer c s = (.ended result, site) := by
  cases c with
  | send d =>
      have hsend : e.send d s = (.ended result, site) := h
      simp only [answer, patient, hsend]
  | _ => exact h

theorem answer_patient_of_waiting {d : Delivery} {mark : Nat} {s s' s'' site : Site σ}
    {result : Except Crash (Except SendFailure Unit)} (h : e.send d s = (.waiting mark, s'))
    (hmeanwhile : meanwhile d mark s' = some site)
    (hlate : e.resume d mark site = some (result, s'')) :
    (e.patient meanwhile).answer (.send d) s = (.ended result, s'') := by
  simp only [answer, patient, h, hmeanwhile, Option.bind_some, hlate]

end Environment

/-- A run whose send waits, and is answered after what others have done, goes on as it would have
gone on with callees that are waited for. -/
theorem Plan.run_patient {plan : Plan} {t t' : Tally} {s s' s'' : Scene σ} {d : Delivery}
    {mark : Nat} {rest : Except SendFailure Unit → Plan} {site : Site σ}
    {result : Except Crash (Except SendFailure Unit)}
    (hrun : plan.run e t s = (.waiting (.send d) mark rest, t', s'))
    (hmeanwhile : meanwhile d mark s'.toSite = some site)
    (hlate : (s'.moveTo site).callLate e (.send d) mark = some (result, s'')) :
    plan.run (e.patient meanwhile) t s =
      match result with
      | .ok reply => (rest reply).run (e.patient meanwhile) t' s''
      | .error crash => (.crashed crash, t', s'') := by
  induction plan generalizing t s with
  | finish outcome => simp [run] at hrun
  | log line rest ih => exact ih hrun
  | edit change rest ih => exact ih hrun
  | countRollback rest ih => exact ih hrun
  | check q rest ih => exact ih _ hrun
  | call c rest' ih =>
      rcases ha : e.answer c s.toSite with ⟨(crash | reply) | mark', left⟩
      · simp [run_call_crash ha] at hrun
      · rw [run_call_ok ha] at hrun
        rw [run_call_ok (Environment.answer_patient_of_ended ha)]
        exact ih reply hrun
      · simp only [run_call_waiting ha, Prod.mk.injEq, Ending.waiting.injEq] at hrun
        obtain ⟨⟨rfl, rfl, hrest⟩, rfl, rfl⟩ := hrun
        obtain rfl := eq_of_heq hrest
        simp only [Scene.callLate, Option.map_eq_some_iff, Prod.mk.injEq] at hlate
        obtain ⟨⟨result', left'⟩, hresume, rfl, rfl⟩ := hlate
        have hanswer := Environment.answer_patient_of_waiting ha hmeanwhile hresume
        cases result' with
        | ok reply => exact run_call_ok hanswer rest' t
        | error crash => exact run_call_crash hanswer rest' t

end ShardedDelivery
