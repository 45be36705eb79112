import Mathlib.Logic.Function.Basic
import ShardedDelivery.Proofs.Scene

/-! # Without contents

Everything that holds contents has a bare form, in which they are left out. When callees do the
same whatever the contents, what a plan does is what its bare form does in the bare scene. -/

namespace ShardedDelivery

open Function (FactorsThrough extend)

/-- A delivery without its content. -/
def Delivery.bare (d : Delivery) : Delivery := { d with content := {} }

/-- A slot without the content that it holds. -/
def Slot.bare (s : Slot) : Slot := { s with delivery := s.delivery.map Delivery.bare }

/-- A call without the content that it carries. -/
def Call.bare : Call → Call
  | send d => send d.bare
  | c => c

/-- An entry of the journal without contents. -/
def Entry.bare : Entry → Entry
  | called c found => called c.bare found
  | returned c accepted => returned c.bare accepted
  | logged line => logged line

/-- What is answered to a bare call is an answer to the call. -/
def Call.reply : (c : Call) → c.bare.Reply → c.Reply
  | send _, reply => reply
  | requeue _, reply => reply
  | moveToDeadLetters .., reply => reply
  | trace .., reply => reply
  | count _, reply => reply

variable {σ τ : Type}

/-- A site of which as much is left as its callees show apart from contents. -/
def Site.bare (shows : σ → τ) (s : Site σ) : Site τ := ⟨s.books, shows s.outside⟩

/-- A scene without contents. -/
def Scene.bare (shows : σ → τ) (s : Scene σ) : Scene τ where
  toSite := s.toSite.bare shows
  journal := s.journal.map Entry.bare

/-- What is done at a site, as far as it shows apart from contents. -/
def Site.shown {α : Type} (shows : σ → τ) (result : α × Site σ) : α × Site τ :=
  result.map id (Site.bare shows)

/-- Callees that do the same whatever the contents. They may keep these for themselves: what they
answer, what they make of the books, and what they show otherwise, factors through what is left
without contents. -/
structure Environment.Blind (e : Environment σ) (shows : σ → τ) : Prop where
  send : FactorsThrough (fun p : Delivery × Site σ => Site.shown shows (e.send p.1 p.2))
    (Prod.map Delivery.bare (Site.bare shows))
  resume : ∀ mark, FactorsThrough
    (fun p : Delivery × Site σ => (e.resume p.1 mark p.2).map (Site.shown shows))
    (Prod.map Delivery.bare (Site.bare shows))
  requeue : ∀ m, FactorsThrough (fun s => Site.shown shows (e.requeue m s)) (Site.bare shows)
  moveToDeadLetters : ∀ m destination queue, FactorsThrough
    (fun s => Site.shown shows (e.moveToDeadLetters m destination queue s)) (Site.bare shows)
  trace : ∀ kind m, FactorsThrough (fun s => Site.shown shows (e.trace kind m s)) (Site.bare shows)
  count : ∀ metric, FactorsThrough (fun s => Site.shown shows (e.count metric s)) (Site.bare shows)

/-- The callees as they are to someone who sees no contents. What they do with anything that is not
the bare form of something does not matter. -/
noncomputable def Environment.bare (e : Environment σ) (shows : σ → τ) : Environment τ where
  send d s := extend (Prod.map Delivery.bare (Site.bare shows))
    (fun p => Site.shown shows (e.send p.1 p.2)) (fun p => (.waiting 0, p.2)) (d, s)
  resume d mark s := extend (Prod.map Delivery.bare (Site.bare shows))
    (fun p => (e.resume p.1 mark p.2).map (Site.shown shows)) (fun _ => none) (d, s)
  requeue m := extend (Site.bare shows) (fun s => Site.shown shows (e.requeue m s))
    fun s => (.ok (), s)
  moveToDeadLetters m destination queue := extend (Site.bare shows)
    (fun s => Site.shown shows (e.moveToDeadLetters m destination queue s))
    fun s => (.ok (.ok ()), s)
  trace kind m := extend (Site.bare shows) (fun s => Site.shown shows (e.trace kind m s))
    fun s => (.ok (), s)
  count metric := extend (Site.bare shows) (fun s => Site.shown shows (e.count metric s))
    fun s => (.ok (), s)

/-! ## Calls -/

/-- An attempt whose answer is put in another form. -/
def Attempt.map {α β : Type} (f : α → β) : Attempt α → Attempt β
  | ended result => ended (result.map f)
  | waiting mark => waiting mark

theorem Call.accepted_bare (c : Call) (reply : c.bare.Reply) :
    c.bare.accepted reply = c.accepted (c.reply reply) := by
  cases c with
  | send d => cases reply <;> rfl
  | moveToDeadLetters m destination queue => cases reply <;> rfl
  | _ => rfl

namespace Environment.Blind

variable {e : Environment σ} {shows : σ → τ} (h : e.Blind shows)

include h

/-- A bare call is answered as the call is. -/
theorem answer_bare (c : Call) (s : Site σ) :
    ((e.bare shows).answer c.bare (s.bare shows)).map (Attempt.map c.reply) id =
      Site.shown shows (e.answer c s) := by
  cases c with
  | send d =>
      have hsend := h.send.extend_apply (fun p => (.waiting 0, p.2)) (d, s)
      simp only [Prod.map_apply] at hsend
      simp only [answer, Call.bare, bare, hsend]
      rcases e.send d s with ⟨(crash | reply) | mark, site⟩ <;> rfl
  | requeue m =>
      simp only [answer, Call.bare, bare, (h.requeue m).extend_apply]
      rcases e.requeue m s with ⟨crash | reply, site⟩ <;> rfl
  | moveToDeadLetters m destination queue =>
      simp only [answer, Call.bare, bare, (h.moveToDeadLetters m destination queue).extend_apply]
      rcases e.moveToDeadLetters m destination queue s with ⟨crash | reply, site⟩ <;> rfl
  | trace kind m =>
      simp only [answer, Call.bare, bare, (h.trace kind m).extend_apply]
      rcases e.trace kind m s with ⟨crash | reply, site⟩ <;> rfl
  | count metric =>
      simp only [answer, Call.bare, bare, (h.count metric).extend_apply]
      rcases e.count metric s with ⟨crash | reply, site⟩ <;> rfl

/-- A bare call that waited is answered as the call is. -/
theorem answerLate_bare (c : Call) (mark : Nat) (s : Site σ) :
    ((e.bare shows).answerLate c.bare mark (s.bare shows)).map (Prod.map (Except.map c.reply) id) =
      (e.answerLate c mark s).map (Site.shown shows) := by
  cases c with
  | send d =>
      have hresume := (h.resume mark).extend_apply (fun _ => none) (d, s)
      simp only [Prod.map_apply] at hresume
      simp only [answerLate, Call.bare, bare, hresume]
      rcases e.resume d mark s with _ | ⟨crash | reply, site⟩ <;> rfl
  | _ => rfl

end Environment.Blind

/-! ## Scenes -/

namespace Scene

variable {e : Environment σ} {shows : σ → τ} (s : Scene σ)

@[simp] theorem toSite_bare : (s.bare shows).toSite = s.toSite.bare shows := rfl

@[simp] theorem books_bare : (s.bare shows).books = s.books := rfl

theorem note_bare (entry : Entry) :
    (s.note entry).bare shows = (s.bare shows).note entry.bare := by
  simp [Scene.bare, note]

theorem log_bare (line : Line) : (s.log line).bare shows = (s.bare shows).log line :=
  s.note_bare _

theorem moveTo_bare (site : Site σ) :
    (s.moveTo site).bare shows = (s.bare shows).moveTo (site.bare shows) := rfl

theorem noteEnd_bare (c : Call) (result : Except Crash c.bare.Reply) :
    (s.noteEnd c (result.map c.reply)).bare shows = (s.bare shows).noteEnd c.bare result := by
  cases result with
  | error crash => rfl
  | ok reply =>
      simp only [Except.map, noteEnd, note_bare, Entry.bare, c.accepted_bare]

/-- A call in the bare scene is the bare call. -/
theorem call_bare (h : e.Blind shows) (c : Call) :
    ((s.bare shows).call (e.bare shows) c.bare).map (Attempt.map c.reply) id =
      (s.call e c).map id (Scene.bare shows) := by
  -- either both calls end or both wait, since the answers agree
  have hanswer := h.answer_bare c s.toSite
  rcases ha : e.answer c s.toSite with ⟨result | mark, site⟩ <;>
    rcases hb : (e.bare shows).answer c.bare (s.toSite.bare shows) with ⟨result' | mark', site'⟩ <;>
    simp only [ha, hb, Site.shown, Prod.map, Attempt.map, id_eq, Prod.mk.injEq, reduceCtorEq,
      false_and, Attempt.ended.injEq, Attempt.waiting.injEq] at hanswer
  · obtain ⟨rfl, rfl⟩ := hanswer
    rw [call_ended ha, call_ended (s := s.bare shows) hb]
    simp only [answered, Prod.map, Attempt.map, noteEnd_bare, moveTo_bare, note_bare, Entry.bare,
      books_bare, id_eq]
  · obtain ⟨rfl, rfl⟩ := hanswer
    rw [call_waiting ha, call_waiting (s := s.bare shows) hb]
    simp only [Prod.map, Attempt.map, moveTo_bare, note_bare, Entry.bare, books_bare, id_eq]

/-- Going on with a bare call that waited is going on with the call. -/
theorem callLate_bare (h : e.Blind shows) (c : Call) (mark : Nat) :
    ((s.bare shows).callLate (e.bare shows) c.bare mark).map (Prod.map (Except.map c.reply) id) =
      (s.callLate e c mark).map (Prod.map id (Scene.bare shows)) := by
  have hlate := h.answerLate_bare c mark s.toSite
  rcases ha : e.answerLate c mark s.toSite with _ | ⟨result, site⟩ <;>
    rcases hb : (e.bare shows).answerLate c.bare mark (s.toSite.bare shows) with
      _ | ⟨result', site'⟩ <;>
    simp only [ha, hb, Site.shown, Prod.map, Option.map_some, Option.map_none, id_eq, reduceCtorEq,
      Option.some.injEq, Prod.mk.injEq] at hlate
  · simp only [callLate, toSite_bare, ha, hb, Option.map_none]
  · obtain ⟨rfl, rfl⟩ := hlate
    simp only [callLate, toSite_bare, ha, hb, Option.map_some, Prod.map, noteEnd_bare, moveTo_bare,
      id_eq]

end Scene

/-! ## Plans -/

/-- A plan that sends no contents. -/
def Plan.bare : Plan → Plan
  | finish outcome => finish outcome
  | log line rest => log line rest.bare
  | edit change rest => edit change rest.bare
  | countRollback rest => countRollback rest.bare
  | check q rest => check q fun answer => (rest answer).bare
  | call c rest => call c.bare fun reply => (rest (c.reply reply)).bare

namespace Plan

/-- Where a run stops, without contents. -/
def Ending.bare : Ending → Ending
  | finished outcome => finished outcome
  | crashed crash => crashed crash
  | waiting c mark rest => waiting c.bare mark fun reply => (rest (c.reply reply)).bare

/-- What one step leads to, without contents. -/
def Progress.bare : Progress → Progress
  | ended ending => ended ending.bare
  | going rest => going rest.bare

section Policy

variable (queue : String) (d : Delivery)

theorem bare_rollback (rest : Plan) : (rollback d rest).bare = rollback d.bare rest.bare := rfl

theorem bare_deadLetter (m : Message) : (deadLetter queue m).bare = deadLetter queue m := by
  unfold deadLetter
  split
  · rfl
  · simp only [bare, Call.bare]
    congr 2
    funext reply
    rcases reply with e | ⟨⟨⟩⟩ <;> rfl

theorem bare_recover : (recover d).bare = recover d.bare := by
  unfold recover
  cases hdurable : d.subscription.durable with
  | true =>
      simp only [Delivery.bare, hdurable, if_true]
      rfl
  | false =>
      simp only [Delivery.bare, hdurable, Bool.false_eq_true, if_false, bare]
      congr 1
      funext disposable
      cases disposable <;> rfl

theorem bare_afterSend (reply : Except SendFailure Unit) :
    (afterSend queue d reply).bare = afterSend queue d.bare reply := by
  rcases reply with (reason | reason | reason) | ⟨⟨⟩⟩
  · simp only [afterSend, bare, bare_rollback, bare_deadLetter]
    rfl
  · simp only [afterSend, bare, bare_rollback, bare_recover]
    rfl
  · rfl
  · rfl

/-- The policy looks at no contents. -/
theorem bare_dispatch (failed : Bool) :
    (dispatch queue d failed).bare = dispatch queue d.bare failed := by
  unfold dispatch
  split
  · rw [bare_rollback, bare_deadLetter]
    rfl
  · simp only [bare]
    congr 1
    funext stale
    cases stale with
    | true => rfl
    | false =>
        simp only [bare]
        congr 1
        funext active
        cases active with
        | false => rw [bare_rollback, bare_recover]
        | true =>
            simp only [bare, Call.bare]
            congr 1
            funext reply
            exact bare_afterSend queue d reply

end Policy

variable {e : Environment σ} {shows : σ → τ}

theorem Progress.bare_ofResult {c : Call} (rest : c.Reply → Plan)
    (result : Except Crash c.bare.Reply) :
    (ofResult rest (result.map c.reply)).bare =
      ofResult (fun reply => (rest (c.reply reply)).bare) result := by
  cases result <;> rfl

theorem Progress.bare_ofAttempt {c : Call} (rest : c.Reply → Plan)
    (attempt : Attempt c.bare.Reply) :
    (ofAttempt rest (attempt.map c.reply)).bare =
      ofAttempt (fun reply => (rest (c.reply reply)).bare) attempt := by
  cases attempt with
  | ended result => exact bare_ofResult rest result
  | waiting mark => rfl

/-- A step of a bare plan in the bare scene is a step of the plan. -/
theorem step_bare (h : e.Blind shows) (plan : Plan) (t : Tally) (s : Scene σ) :
    plan.bare.step (e.bare shows) t (s.bare shows) =
      (plan.step e t s).map Progress.bare (Prod.map id (Scene.bare shows)) := by
  cases plan with
  | finish outcome => rfl
  | log line rest => simp only [bare, step, Prod.map, Progress.bare, s.log_bare, id_eq]
  | edit change rest => rfl
  | countRollback rest => rfl
  | check q rest => rfl
  | call c rest =>
      have hcall := s.call_bare h c
      simp only [bare, step]
      rcases ha : s.call e c with ⟨attempt, s'⟩
      rcases hb : (s.bare shows).call (e.bare shows) c.bare with ⟨attempt', s''⟩
      simp only [ha, hb, Prod.map, id_eq, Prod.mk.injEq] at hcall ⊢
      obtain ⟨rfl, rfl⟩ := hcall
      rw [Progress.bare_ofAttempt]
      exact ⟨rfl, trivial, rfl⟩

/-- The run of a bare plan in the bare scene is the run of the plan. -/
theorem run_bare (h : e.Blind shows) (plan : Plan) (t : Tally) (s : Scene σ) :
    plan.bare.run (e.bare shows) t (s.bare shows) =
      (plan.run e t s).map Ending.bare (Prod.map id (Scene.bare shows)) := by
  induction plan generalizing t s with
  | finish outcome => rfl
  | log line rest ih => simpa only [bare, run, s.log_bare] using ih t (s.log line)
  | edit change rest ih => exact ih t (s.edit change)
  | countRollback rest ih => exact ih t.countRollback s
  | check q rest ih => exact ih _ t s
  | call c rest ih =>
      have hcall := s.call_bare h c
      simp only [bare, run]
      rcases ha : s.call e c with ⟨(crash | reply) | mark, s'⟩ <;>
        rcases hb : (s.bare shows).call (e.bare shows) c.bare with
          ⟨(crash' | reply') | mark', s''⟩ <;>
        simp only [ha, hb, Prod.map, Attempt.map, Except.map, id_eq, Prod.mk.injEq, reduceCtorEq,
          false_and, Attempt.ended.injEq, Attempt.waiting.injEq, Except.ok.injEq,
          Except.error.injEq] at hcall ⊢
      · obtain ⟨rfl, rfl⟩ := hcall
        exact ⟨rfl, trivial, rfl⟩
      · obtain ⟨rfl, rfl⟩ := hcall
        exact ih (c.reply reply') t s'
      · obtain ⟨rfl, rfl⟩ := hcall
        exact ⟨rfl, trivial, rfl⟩

end Plan

end ShardedDelivery
