import ShardedDelivery.Proofs.Isolation
import ShardedDelivery.Proofs.Scene
import ShardedDelivery.Proofs.Tally

/-! # Plans in lockstep

Two scenes that agree on the channel of a delivery stay so while the plan of the delivery is carried
out in both of them. A step does the same on both sides, unless one side has to wait for a send. -/

namespace ShardedDelivery

variable {σ σ' τ : Type} {a : Callees σ τ} {b : Callees σ' τ} {β : Behaviour τ}
  {home : Message → ChannelId} {own : ChannelId → Prop} {d : Delivery}

/-! ## Edits and queries -/

namespace Edit.Concerns

variable {change : Edit}

theorem beside (h : change.Concerns d) (a : Callees σ τ) (s : Scene σ) :
    a.Beside d s.toSite (s.edit change).toSite where
  messages _ hm := h.messages_eq s.books hm
  subscriptions _ hx := h.subscriptions_eq s.books hx
  parts _ _ := rfl

/-- An edit that concerns a delivery depends on nothing but its view. -/
theorem view_eq (h : change.Concerns d) {s : Scene σ} {u : Scene σ'}
    (hv : a.view d s.toSite = b.view d u.toSite) :
    a.view d (s.edit change).toSite = b.view d (u.edit change).toSite := by
  obtain ⟨hp, hrecords⟩ := Callees.view_eq_iff.mp hv
  exact Callees.view_eq_iff.mpr ⟨hp, h.records_eq hrecords⟩

end Edit.Concerns

theorem Query.Concerns.holds_eq {q : Query} (h : q.Concerns d) {s : Site σ} {u : Site σ'}
    (hv : a.view d s = b.view d u) : q.holds s.books = q.holds u.books := by
  simp only [Callees.view, View.mk.injEq] at hv
  obtain ⟨-, hm, hx⟩ := hv
  cases q <;>
    simp_all [Concerns, Query.holds, Books.isStale, Books.isDisposable, Books.isActive]

/-! ## Calls -/

namespace Behaviour

/-- The answer to a call that is no send. -/
def answer? (β : Behaviour τ) : (c : Call) → Option (Except Crash c.Reply)
  | .send _ => none
  | .requeue m => some (β.requeue m)
  | .moveToDeadLetters m destination queue => some (β.moveToDeadLetters m destination queue)
  | .trace kind m => some (β.trace kind m)
  | .count metric => some (β.count metric)

theorem send_of_answer?_eq_none {c : Call} (h : β.answer? c = none) : ∃ d, c = .send d := by
  cases c with
  | send d => exact ⟨d, rfl⟩
  | _ => contradiction

end Behaviour

namespace Scene

theorem call_send {e : Environment σ} {s : Scene σ} {attempt : Attempt (Except SendFailure Unit)}
    {site : Site σ} (h : e.send d s.toSite = (attempt, site)) :
    (s.call e (.send d)).1 = attempt ∧ (s.call e (.send d)).2.toSite = site := by
  obtain ⟨hattempt, hsite⟩ := s.call_spec e (.send d)
  exact ⟨hattempt.trans (congrArg Prod.fst h), hsite.trans (congrArg Prod.snd h)⟩

/-- Everyone but the transports answers at once, and changes nothing that a transport sees. -/
theorem call_service (ha : a.Follows β) {c : Call} {result : Except Crash c.Reply}
    (hc : β.answer? c = some result) {s : Scene σ} (hs : a.calm s.outside) :
    (s.call a.env c).1 = .ended result ∧ a.Still s.toSite (s.call a.env c).2.toSite := by
  obtain ⟨hattempt, hsite⟩ := s.call_spec a.env c
  rw [hattempt, hsite]
  cases c with
  | send d => contradiction
  | requeue m =>
      obtain ⟨hanswer, hstill⟩ := ha.requeue m s.toSite hs
      cases hc
      exact ⟨congrArg Attempt.ended hanswer, hstill⟩
  | moveToDeadLetters m destination queue =>
      obtain ⟨hanswer, hstill⟩ := ha.moveToDeadLetters m destination queue s.toSite hs
      cases hc
      exact ⟨congrArg Attempt.ended hanswer, hstill⟩
  | trace kind m =>
      obtain ⟨hanswer, hstill⟩ := ha.trace kind m s.toSite hs
      cases hc
      exact ⟨congrArg Attempt.ended hanswer, hstill⟩
  | count metric =>
      obtain ⟨hanswer, hstill⟩ := ha.count metric s.toSite hs
      cases hc
      exact ⟨congrArg Attempt.ended hanswer, hstill⟩

/-- A send leads to nothing but what its transport may do. -/
theorem call_send_beside (ha : a.Follows β) {s : Scene σ} (hs : a.calm s.outside) :
    a.Beside d s.toSite (s.call a.env (.send d)).2.toSite ∧
      a.calm (s.call a.env (.send d)).2.outside := by
  rcases hsend : a.env.send d s.toSite with ⟨result | mark, site⟩
  · obtain ⟨-, hbeside, hcalm⟩ := ha.ended d _ _ _ hs hsend
    rw [(call_send hsend).2]
    exact ⟨hbeside, hcalm⟩
  · obtain ⟨-, hbeside, hcalm⟩ := ha.waits d _ _ _ hs hsend
    rw [(call_send hsend).2]
    exact ⟨hbeside, hcalm⟩

theorem call_prompt (hb : b.Follows β) (hprompt : b.Prompt) (c : Call) {y : Scene σ'}
    (hy : b.calm y.outside) : ∃ result, (y.call b.env c).1 = .ended result := by
  cases hc : β.answer? c with
  | some result => exact ⟨result, (call_service hb hc hy).1⟩
  | none =>
      obtain ⟨d, rfl⟩ := Behaviour.send_of_answer?_eq_none hc
      obtain ⟨result, site, hsend⟩ := hprompt d y.toSite hy
      exact ⟨result, (call_send hsend).1⟩

/-- A send that waited ends as it does where it need not wait. -/
theorem callLate_alike (hb : b.Follows β) (hprompt : b.Prompt) {mark : Nat} {s s' : Scene σ}
    {y : Scene σ'} (hs : a.calm s.outside) (hy : b.calm y.outside)
    (hw : a.Resumes β d mark (b.view d y.toSite) s.toSite)
    {result : Except Crash (Except SendFailure Unit)}
    (hlate : s.callLate a.env (.send d) mark = some (result, s')) :
    (y.call b.env (.send d)).1 = .ended result ∧
      a.view d s'.toSite = b.view d (y.call b.env (.send d)).2.toSite ∧
        a.Beside d s.toSite s'.toSite ∧ a.calm s'.outside := by
  simp only [callLate, Option.map_eq_some_iff, Prod.mk.injEq] at hlate
  obtain ⟨⟨result', site⟩, hresume, rfl, rfl⟩ := hlate
  obtain ⟨hbehavea, hbeside, hcalm⟩ := hw s.toSite _ _ hs rfl hresume
  obtain ⟨r, y', hsend⟩ := hprompt d y.toSite hy
  obtain ⟨hr, hy'⟩ := call_send hsend
  obtain ⟨hbehaveb, -, -⟩ := hb.ended d _ _ _ hy hsend
  rw [hbehavea, Prod.mk.injEq] at hbehaveb
  have hsite : ((s.moveTo site).noteEnd (.send d) result').toSite = site := toSite_noteEnd _ _ _
  rw [hsite, hy', hr, hbehaveb.1]
  exact ⟨rfl, hbehaveb.2, hbeside, hsite ▸ hcalm⟩

end Scene

namespace Plan

/-! ## Steps -/

/-- What a step counts. -/
def bill : Plan → Tally
  | countRollback _ => { rollbacks := 1 }
  | _ => 0

/-- A step changes nothing but what concerns its delivery. -/
theorem step_beside (ha : a.Follows β) {k : Nat} {plan : Plan} (hp : plan.Serves d k) (t : Tally)
    {s : Scene σ} (hs : a.calm s.outside) :
    a.Beside d s.toSite (plan.step a.env t s).2.2.toSite ∧
      a.calm (plan.step a.env t s).2.2.outside := by
  cases plan with
  | finish outcome => exact ⟨.refl a d _, hs⟩
  | log line rest => exact ⟨.refl a d _, hs⟩
  | edit change rest => exact ⟨hp.1.beside a s, hs⟩
  | countRollback rest => exact ⟨.refl a d _, hs⟩
  | check q rest => exact ⟨.refl a d _, hs⟩
  | call c rest =>
      cases hc : β.answer? c with
      | some result =>
          obtain ⟨-, hstill⟩ := Scene.call_service ha hc hs
          exact ⟨hstill.beside d, hstill.calm hs⟩
      | none =>
          obtain ⟨d', rfl⟩ := Behaviour.send_of_answer?_eq_none hc
          obtain rfl := hp.1 d' rfl
          exact Scene.call_send_beside ha hs

/-- With the same view of a delivery, a step of its plan does the same in two scenes, unless it has
to wait for the send in one of them. -/
theorem step_alike (ha : a.Follows β) (hb : b.Follows β) (hprompt : b.Prompt) {k : Nat}
    {plan : Plan} (hp : plan.Serves d k) (t u : Tally) {s : Scene σ} {y : Scene σ'}
    (hs : a.calm s.outside) (hy : b.calm y.outside) (hv : a.view d s.toSite = b.view d y.toSite) :
    (∃ mark rest, plan = .call (.send d) rest ∧
      (plan.step a.env t s).1 = .ended (.waiting (.send d) mark rest) ∧
        a.Resumes β d mark (b.view d y.toSite) (plan.step a.env t s).2.2.toSite) ∨
    ((plan.step a.env t s).1 = (plan.step b.env u y).1 ∧
      a.view d (plan.step a.env t s).2.2.toSite = b.view d (plan.step b.env u y).2.2.toSite) := by
  cases plan with
  | finish outcome => exact Or.inr ⟨rfl, hv⟩
  | log line rest => exact Or.inr ⟨rfl, hv⟩
  | edit change rest => exact Or.inr ⟨rfl, hp.1.view_eq hv⟩
  | countRollback rest => exact Or.inr ⟨rfl, hv⟩
  | check q rest => exact Or.inr ⟨by simp only [step, hp.1.holds_eq hv], hv⟩
  | call c rest =>
      cases hc : β.answer? c with
      | some result =>
          obtain ⟨hra, hstilla⟩ := Scene.call_service ha hc hs
          obtain ⟨hrb, hstillb⟩ := Scene.call_service hb hc hy
          refine Or.inr ⟨by simp only [step, hra, hrb], ?_⟩
          exact ((hstilla.view_eq d).trans hv).trans (hstillb.view_eq d).symm
      | none =>
          obtain ⟨d', rfl⟩ := Behaviour.send_of_answer?_eq_none hc
          obtain rfl := hp.1 d' rfl
          obtain ⟨r', y', hsendb⟩ := hprompt d' y.toSite hy
          obtain ⟨hrb, hyb⟩ := Scene.call_send hsendb
          obtain ⟨hbehaveb, -, -⟩ := hb.ended d' _ _ _ hy hsendb
          rcases hsenda : a.env.send d' s.toSite with ⟨r | mark, s'⟩
          · obtain ⟨hra, hsa⟩ := Scene.call_send hsenda
            obtain ⟨hbehavea, -, -⟩ := ha.ended d' _ _ _ hs hsenda
            rw [hv, hbehaveb, Prod.mk.injEq] at hbehavea
            refine Or.inr ⟨by simp only [step, hra, hrb, hbehavea.1], ?_⟩
            simp only [step, hsa, hyb, hbehavea.2]
          · obtain ⟨hra, hsa⟩ := Scene.call_send hsenda
            obtain ⟨hresumes, -, -⟩ := ha.waits d' _ _ _ hs hsenda
            refine Or.inl ⟨mark, rest, rfl, by simp only [step, hra, Progress.ofAttempt], ?_⟩
            simp only [step, hsa]
            rwa [hv] at hresumes

theorem tally_step (plan : Plan) (e : Environment σ) (t : Tally) (s : Scene σ) :
    (plan.step e t s).2.1 = t + plan.bill := by
  cases plan with
  | countRollback rest => exact t.countRollback_eq
  | _ => simp only [step, bill, add_zero]

/-! ## Runs -/

/-- The outcome of a delivery whose plan has ended so. -/
def Ending.outcome? : Ending → Option Outcome
  | finished outcome => some outcome
  | crashed _ => some .unhandled
  | waiting .. => none

/-- Where no send waits, a plan comes to its end, and has changed nothing but what concerns its
delivery. -/
theorem run_beside (hb : b.Follows β) (hprompt : b.Prompt) {k : Nat} {plan : Plan}
    (hp : plan.Serves d k) (t : Tally) {y : Scene σ'} (hy : b.calm y.outside) :
    b.Beside d y.toSite (plan.run b.env t y).2.2.toSite ∧
      b.calm (plan.run b.env t y).2.2.outside ∧
        ∃ outcome, (plan.run b.env t y).1.outcome? = some outcome := by
  induction plan generalizing k t y with
  | finish outcome => exact ⟨.refl b d _, hy, outcome, rfl⟩
  | log line rest ih => exact ih hp t (y := y.log line) hy
  | edit change rest ih =>
      obtain ⟨hbeside, hrest⟩ := ih hp.2 t (y := y.edit change) hy
      exact ⟨(hp.1.beside b y).trans hbeside, hrest⟩
  | countRollback rest ih => exact ih hp t.countRollback hy
  | check q rest ih => exact ih _ (hp.2 _) t hy
  | call c rest ih =>
      obtain ⟨hbeside, hcalm⟩ := step_beside hb hp t hy
      obtain ⟨-, k', -, hrest⟩ := hp
      obtain ⟨result, hresult⟩ := Scene.call_prompt hb hprompt c hy
      simp only [step] at hbeside hcalm
      rcases hcall : y.call b.env c with ⟨attempt, y'⟩
      rw [hcall] at hresult hbeside hcalm
      obtain rfl : attempt = .ended result := hresult
      cases result with
      | error crash =>
          simp only [run, hcall]
          exact ⟨hbeside, hcalm, .unhandled, rfl⟩
      | ok reply =>
          simp only [run, hcall]
          obtain ⟨hbeside', hafter⟩ := ih reply (hrest reply) t hcalm
          exact ⟨hbeside.trans hbeside', hafter⟩

end Plan

end ShardedDelivery
