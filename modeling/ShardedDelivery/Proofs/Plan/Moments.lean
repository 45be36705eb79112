import ShardedDelivery.Proofs.Scene

/-! # The moments of a run

Whenever a run makes a call there is a moment: what remains to be done, and the tally and the scene
so far. The run can be taken up there. Environments that answer alike up to a call come to the same
moment, whatever they make of the call itself. -/

namespace ShardedDelivery

variable {σ : Type}

/-- A run about to make a call. -/
structure Moment (σ : Type) where
  call : Call
  rest : call.Reply → Plan
  tally : Tally
  scene : Scene σ

namespace Moment

/-- The journal once the call is noted. -/
def journal (m : Moment σ) : List Entry := m.scene.journal ++ [.called m.call m.scene.books]

/-- What remains to be done, with the call. -/
def plan (m : Moment σ) : Plan := .call m.call m.rest

/-- Two environments answer the call alike. -/
def Alike (m : Moment σ) (e e' : Environment σ) : Prop :=
  e.answer m.call m.scene.toSite = e'.answer m.call m.scene.toSite

end Moment

namespace Scene

section Errors

variable (s : Scene σ)

end Errors

end Scene

namespace Plan

/-- A run comes to a moment, after these other ones. -/
inductive Arrives (e : Environment σ) :
    Plan → Tally → Scene σ → List (Moment σ) → Moment σ → Prop where
  | log {line rest t s past m} :
      Arrives e rest t (s.log line) past m → Arrives e (.log line rest) t s past m
  | edit {change rest t s past m} :
      Arrives e rest t (s.edit change) past m → Arrives e (.edit change rest) t s past m
  | countRollback {rest t s past m} :
      Arrives e rest t.countRollback s past m → Arrives e (.countRollback rest) t s past m
  | check {q rest t s past m} :
      Arrives e (rest (q.holds s.books)) t s past m → Arrives e (.check q rest) t s past m
  | here {c rest t s} : Arrives e (.call c rest) t s [] ⟨c, rest, t, s⟩
  | call {c rest t s reply site past m} :
      e.answer c s.toSite = (.ended (.ok reply), site) →
        Arrives e (rest reply) t (s.answered c (.ok reply) site) past m →
          Arrives e (.call c rest) t s (⟨c, rest, t, s⟩ :: past) m

namespace Arrives

variable {e e' : Environment σ} {plan : Plan} {t : Tally} {s : Scene σ} {past : List (Moment σ)}
  {m : Moment σ}

/-- A run goes on from each of its moments. -/
theorem run_eq (h : plan.Arrives e t s past m) :
    plan.run e t s = m.plan.run e m.tally m.scene := by
  induction h with
  | here => rfl
  | call ha _ ih => rw [run_call_ok ha, ih]
  | _ => assumption

theorem calls_eq (h : plan.Arrives e t s past m) :
    m.scene.calls = s.calls ++ past.map Moment.call := by
  induction h with
  | here => simp
  | call _ _ ih => simpa using ih
  | _ => simp_all

/-- Nothing but rollbacks is counted on the way. -/
theorem tally_eq (h : plan.Arrives e t s past m) :
    m.tally = { t with rollbacks := m.tally.rollbacks } := by
  induction h with
  | here => rfl
  | _ => assumption

end Arrives

variable {e : Environment σ}

/-- What a run has done before a moment, and the call, are at the start of its journal. -/
theorem Arrives.journal_run {plan : Plan} {t : Tally} {s : Scene σ} {past : List (Moment σ)}
    {m : Moment σ} (h : plan.Arrives e t s past m) :
    m.journal <+: (plan.run e t s).2.2.journal := by
  rw [h.run_eq, Moment.plan]
  rcases ha : e.answer m.call m.scene.toSite with ⟨(crash | reply) | mark, site⟩
  · rw [run_call_crash ha]
    exact m.scene.journal_answered m.call _ site
  · rw [run_call_ok ha]
    exact (m.scene.journal_answered m.call _ site).trans (Plan.journal_run _ e _ _)
  · rw [run_call_waiting ha]
    exact List.prefix_refl _

end Plan

end ShardedDelivery
