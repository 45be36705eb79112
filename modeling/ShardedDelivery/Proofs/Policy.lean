import ShardedDelivery.Proofs.Conservation
import ShardedDelivery.Proofs.Rollback

/-! # The recovery policy

The rules by which a delivery is dealt with, as derivations: what is done about it in which order,
how it ends, and what the callees make of the site on the way. A handler keeps to them whenever
every call that it makes returns. A send that waits and is answered later is one of callees that
are waited for (`Plan.run_patient`). -/

namespace ShardedDelivery

variable {σ : Type}

/-- Something that is done about a delivery. -/
inductive Act where
  | takeBack
  | call (c : Call)
deriving DecidableEq, Repr

/-- The call that is made. -/
def Act.call? : Act → Option Call
  | takeBack => none
  | call c => some c

/-- The delivery is taken back: so the books say, and nothing else is done. -/
structure Site.TakesBack (s : Site σ) (d : Delivery) (s' : Site σ) : Prop where
  site : s' = s.takeBack d
  books : s.books.TakesBack d s'.books
  outside : s'.outside = s.outside

theorem Site.takesBack (s : Site σ) (d : Delivery) : s.TakesBack d (s.takeBack d) where
  site := rfl
  books := Books.takesBack_rollback _ d
  outside := rfl

/-- A call returns with this reply. -/
def Environment.Returns (e : Environment σ) (c : Call) (reply : c.Reply) (s s' : Site σ) : Prop :=
  e.answer c s = (.ended (.ok reply), s')

/-- A message that cannot be delivered goes to the dead letter queue, if it has one to go to. -/
inductive Routed (e : Environment σ) (queue : String) (m : Message) :
    Site σ → List Act → Outcome → Site σ → Prop where
  | topic {s} (hkind : m.kind = .topic) : Routed e queue m s [] (.dropped .topicNoDeadLetter) s
  | moved {s s₁ s₂ s₃} (hkind : m.kind = .queue)
      (hmove : e.Returns (.moveToDeadLetters m m.destination queue) (.ok ()) s s₁)
      (htrace : e.Returns (.trace .deadLettered m) () s₁ s₂)
      (hcount : e.Returns (.count .deadLettered) () s₂ s₃) :
      Routed e queue m s [.call (.moveToDeadLetters m m.destination queue),
        .call (.trace .deadLettered m), .call (.count .deadLettered)] .deadLettered s₃
  | refused {s s₁ error} (hkind : m.kind = .queue)
      (hmove : e.Returns (.moveToDeadLetters m m.destination queue) (.error error) s s₁) :
      Routed e queue m s [.call (.moveToDeadLetters m m.destination queue)]
        (.dropped .deadLetterFailed) s₁

/-- A subscriber that cannot be reached gets the message again if it is durable, and loses it
otherwise. -/
inductive Recovered (e : Environment σ) (d : Delivery) :
    Site σ → List Act → Outcome → Site σ → Prop where
  | requeued {s s₁ s₂} (hdurable : d.subscription.durable = true)
      (hrequeue : e.Returns (.requeue d.message) () s s₁)
      (hcount : e.Returns (.count .requeued) () s₁ s₂) :
      Recovered e d s [.call (.requeue d.message), .call (.count .requeued)] .requeued s₂
  | disposable {s} (hdurable : d.subscription.durable = false)
      (hdisposable : s.books.isDisposable d.message = true) :
      Recovered e d s [] (.dropped .disposable) s
  | closed {s} (hdurable : d.subscription.durable = false)
      (hdisposable : s.books.isDisposable d.message = false) :
      Recovered e d s [] (.dropped .subscriberClosed) s

/-- Nothing keeps a delivery from being sent. -/
structure Sendable (d : Delivery) (failed : Bool) (b : Books) : Prop where
  failed : failed = false
  stale : b.isStale d.message = false
  active : b.isActive d.subscription = true

/-- The policy: from a site, a delivery on which an earlier stage has or has not failed is dealt
with by these acts, ends so, and leaves this site. -/
inductive Policy (e : Environment σ) (queue : String) (d : Delivery) (failed : Bool) :
    Site σ → List Act → Outcome → Site σ → Prop where
  | flagged {s s₁ acts outcome s'} (hfailed : failed = true) (hback : s.TakesBack d s₁)
      (hrouted : Routed e queue d.message s₁ acts outcome s') :
      Policy e queue d failed s (.takeBack :: acts) outcome s'
  | stale {s s₁ s₂} (hfailed : failed = false) (hstale : s.books.isStale d.message = true)
      (hback : s.TakesBack d s₁)
      (htrace : e.Returns (.trace .staleDiscarded d.message) () s₁ s₂) :
      Policy e queue d failed s [.takeBack, .call (.trace .staleDiscarded d.message)]
        (.dropped .stale) s₂
  | inactive {s s₁ acts outcome s'} (hfailed : failed = false)
      (hstale : s.books.isStale d.message = false)
      (hactive : s.books.isActive d.subscription = false) (hback : s.TakesBack d s₁)
      (hrecovered : Recovered e d s₁ acts outcome s') :
      Policy e queue d failed s (.takeBack :: acts) outcome s'
  | delivered {s s₁ s₂ s₃} (hsendable : Sendable d failed s.books)
      (hsend : e.Returns (.send d) (.ok ()) s s₁)
      (htrace : e.Returns (.trace .dispatched d.message) () s₁ s₂)
      (hcount : e.Returns (.count .sent) () s₂ s₃) :
      Policy e queue d failed s
        [.call (.send d), .call (.trace .dispatched d.message), .call (.count .sent)] .delivered s₃
  | violated {s s₁ s₂ reason acts outcome s'} (hsendable : Sendable d failed s.books)
      (hsend : e.Returns (.send d) (.error (.ruleViolation reason)) s s₁)
      (hback : s₁.TakesBack d s₂) (hrouted : Routed e queue d.message s₂ acts outcome s') :
      Policy e queue d failed s (.call (.send d) :: .takeBack :: acts) outcome s'
  | broken {s s₁ s₂ reason acts outcome s'} (hsendable : Sendable d failed s.books)
      (hsend : e.Returns (.send d) (.error (.transient reason)) s s₁)
      (hback : s₁.TakesBack d s₂) (hrecovered : Recovered e d s₂ acts outcome s') :
      Policy e queue d failed s (.call (.send d) :: .takeBack :: acts) outcome s'
  | unclassified {s s₁ reason} (hsendable : Sendable d failed s.books)
      (hsend : e.Returns (.send d) (.error (.unexpected reason)) s s₁) :
      Policy e queue d failed s [.call (.send d)] .unhandled s₁

/-! ## Carrying plans out -/

namespace Plan

/-- Carried out from here, a plan does this and comes to this end. -/
structure Does (e : Environment σ) (plan : Plan) (t : Tally) (s : Scene σ) (acts : List Act)
    (outcome : Outcome) (site : Site σ) : Prop where
  ending : (plan.run e t s).1 = .finished outcome
  tally : (plan.run e t s).2.1 =
    { t with rollbacks := t.rollbacks + UInt64.ofNat (acts.count .takeBack) }
  site : (plan.run e t s).2.2.toSite = site
  calls : (plan.run e t s).2.2.calls = s.calls ++ acts.filterMap Act.call?
  returns : (plan.run e t s).2.2.returns = s.returns ++ acts.filterMap Act.call?

section Doing

variable {e : Environment σ} {rest : Plan} {t : Tally} {s : Scene σ} {d : Delivery}
  {acts : List Act} {outcome : Outcome} {site site' : Site σ} {queue : String} {failed : Bool}

theorem Does.finish : (Plan.finish outcome).Does e t s [] outcome s.toSite where
  ending := rfl
  tally := by simp [run]
  site := rfl
  calls := by simp [run]
  returns := by simp [run]

theorem Does.log {line : Line} (h : rest.Does e t (s.log line) acts outcome site) :
    (Plan.log line rest).Does e t s acts outcome site where
  ending := h.ending
  tally := h.tally
  site := h.site
  calls := by simpa [run] using h.calls
  returns := by simpa [run] using h.returns

theorem Does.check {q : Query} {rest : Bool → Plan} {answer : Bool}
    (hq : q.holds s.books = answer) (h : (rest answer).Does e t s acts outcome site) :
    (Plan.check q rest).Does e t s acts outcome site := by
  subst hq
  exact ⟨h.ending, h.tally, h.site, h.calls, h.returns⟩

theorem Does.rollback
    (h : rest.Does e t.countRollback (s.takeBack d) acts outcome site) :
    (Plan.rollback d rest).Does e t s (.takeBack :: acts) outcome site where
  ending := h.ending
  tally := by
    have hcount : t.rollbacks + 1 + UInt64.ofNat (acts.count .takeBack) =
        t.rollbacks + UInt64.ofNat ((.takeBack :: acts).count .takeBack) := by
      rw [List.count_cons_self, UInt64.ofNat_add, UInt64.add_assoc, UInt64.add_comm 1]
      rfl
    rw [← hcount]
    exact h.tally
  site := h.site
  calls := h.calls
  returns := h.returns

theorem Does.call {c : Call} {rest : c.Reply → Plan} {reply : c.Reply}
    (hreply : e.Returns c reply s.toSite site)
    (h : (rest reply).Does e t (s.answered c (.ok reply) site) acts outcome site') :
    (Plan.call c rest).Does e t s (.call c :: acts) outcome site' := by
  have hrun := run_call_ok hreply rest t
  refine ⟨?_, ?_, ?_, ?_, ?_⟩
  · rw [hrun, h.ending]
  · rw [hrun, h.tally]
    simp
  · rw [hrun, h.site]
  · rw [hrun, h.calls]
    simp [Act.call?]
  · rw [hrun, h.returns]
    simp [Act.call?]

end Doing

/-- Where a call was made and the plan came to its end, the call returned. -/
theorem returns_of_finished {e : Environment σ} {c : Call} {rest : c.Reply → Plan} {t : Tally}
    {s : Scene σ} {outcome : Outcome} (h : ((call c rest).run e t s).1 = .finished outcome) :
    ∃ reply site, e.Returns c reply s.toSite site ∧
      ((rest reply).run e t (s.answered c (.ok reply) site)).1 = .finished outcome := by
  rcases ha : e.answer c s.toSite with ⟨(crash | reply) | mark, site⟩
  · simp [run_call_crash ha] at h
  · rw [run_call_ok ha] at h
    exact ⟨reply, site, ha, h⟩
  · simp [run_call_waiting ha] at h

/-- A run comes to its end when every call that it makes returns, and only then. -/
theorem answered_run (plan : Plan) (e : Environment σ) (t : Tally) (s : Scene σ) :
    ∃ calls returns, (plan.run e t s).2.2.calls = s.calls ++ calls ∧
      (plan.run e t s).2.2.returns = s.returns ++ returns ∧
        match (plan.run e t s).1 with
        | .finished _ => returns = calls
        | _ => calls.length = returns.length + 1 := by
  induction plan generalizing t s with
  | finish outcome => exact ⟨[], [], by simp [run], by simp [run], rfl⟩
  | log line rest ih => simpa [run] using ih t (s.log line)
  | edit change rest ih => simpa [run] using ih t (s.edit change)
  | countRollback rest ih => exact ih t.countRollback s
  | check q rest ih => exact ih _ t s
  | call c rest ih =>
      rcases ha : e.answer c s.toSite with ⟨(crash | reply) | mark, site⟩
      · rw [run_call_crash ha]
        exact ⟨[c], [], by simp, by simp, rfl⟩
      · rw [run_call_ok ha]
        obtain ⟨calls, returns, hcalls, hreturns, hend⟩ :=
          ih reply t (s.answered c (.ok reply) site)
        refine ⟨c :: calls, c :: returns, by simp [hcalls], by simp [hreturns], ?_⟩
        split <;> simp_all
      · rw [run_call_waiting ha]
        exact ⟨[c], [], by simp, by simp, rfl⟩

theorem finished_of_answered {plan : Plan} {e : Environment σ} {t : Tally} {s : Scene σ}
    (h : (plan.run e t s).2.2.Answered s) : ∃ outcome, (plan.run e t s).1 = .finished outcome := by
  obtain ⟨both, hcalls, hreturns⟩ := h
  obtain ⟨calls, returns, hcalls', hreturns', hend⟩ := answered_run plan e t s
  rw [hcalls] at hcalls'
  rw [hreturns] at hreturns'
  obtain rfl := List.append_cancel_left hcalls'
  obtain rfl := List.append_cancel_left hreturns'
  split at hend
  · exact ⟨_, by assumption⟩
  · omega

end Plan

/-! ## The policy and its plan -/

section Rules

variable {e : Environment σ} {queue : String} {m : Message} {d : Delivery} {failed : Bool}
  {t : Tally} {s : Scene σ} {acts : List Act} {outcome : Outcome} {site : Site σ}

theorem Routed.does (h : Routed e queue m s.toSite acts outcome site) (t : Tally) :
    (Plan.deadLetter queue m).Does e t s acts outcome site := by
  cases h with
  | topic hkind =>
      have hplan : m.isTopic = true := by simp [Message.isTopic, hkind]
      rw [Plan.deadLetter, if_pos hplan]
      exact .log .finish
  | moved hkind hmove htrace hcount =>
      have hplan : ¬ m.isTopic = true := by simp [Message.isTopic, hkind]
      rw [Plan.deadLetter, if_neg hplan]
      exact .log (.call hmove (.call htrace (.call hcount .finish)))
  | refused hkind hmove =>
      have hplan : ¬ m.isTopic = true := by simp [Message.isTopic, hkind]
      rw [Plan.deadLetter, if_neg hplan]
      exact .log (.call hmove (.log .finish))

theorem Recovered.does (h : Recovered e d s.toSite acts outcome site) (t : Tally) :
    (Plan.recover d).Does e t s acts outcome site := by
  cases h with
  | requeued hdurable hrequeue hcount =>
      rw [Plan.recover, if_pos hdurable]
      exact .call hrequeue (.call hcount .finish)
  | disposable hdurable hdisposable =>
      rw [Plan.recover, if_neg (by simp [hdurable])]
      exact .check hdisposable .finish
  | closed hdurable hdisposable =>
      rw [Plan.recover, if_neg (by simp [hdurable])]
      exact .check hdisposable (.log .finish)

/-- A delivery that may be sent is sent. -/
theorem Sendable.does (hsendable : Sendable d failed s.books)
    (h : (Plan.call (.send d) (Plan.afterSend queue d)).Does e t s acts outcome site) :
    (Plan.dispatch queue d failed).Does e t s acts outcome site := by
  rw [Plan.dispatch, if_neg (by simp [hsendable.failed])]
  exact .check hsendable.stale (.check hsendable.active h)

theorem Policy.does (h : Policy e queue d failed s.toSite acts outcome site) (t : Tally) :
    (Plan.dispatch queue d failed).Does e t s acts outcome site := by
  cases h with
  | flagged hfailed hback hrouted =>
      rw [hback.site] at hrouted
      rw [Plan.dispatch, if_pos hfailed]
      exact .rollback (hrouted.does _)
  | stale hfailed hstale hback htrace =>
      rw [hback.site] at htrace
      rw [Plan.dispatch, if_neg (by simp [hfailed])]
      exact .check hstale (.rollback (.call htrace .finish))
  | inactive hfailed hstale hactive hback hrecovered =>
      rw [hback.site] at hrecovered
      rw [Plan.dispatch, if_neg (by simp [hfailed])]
      exact .check hstale (.check hactive (.rollback (hrecovered.does _)))
  | delivered hsendable hsend htrace hcount =>
      exact hsendable.does (.call hsend (.call htrace (.call hcount .finish)))
  | violated hsendable hsend hback hrouted =>
      rw [hback.site] at hrouted
      exact hsendable.does (.call hsend (.log (.rollback (hrouted.does _))))
  | broken hsendable hsend hback hrecovered =>
      rw [hback.site] at hrecovered
      exact hsendable.does (.call hsend (.log (.rollback (hrecovered.does _))))
  | unclassified hsendable hsend =>
      exact hsendable.does (.call hsend (.log .finish))

theorem routed_of_finished
    (h : ((Plan.deadLetter queue m).run e t s).1 = .finished outcome) :
    ∃ acts site, Routed e queue m s.toSite acts outcome site := by
  cases hkind : m.kind with
  | topic =>
      rw [Plan.deadLetter, if_pos (by simp [Message.isTopic, hkind])] at h
      obtain rfl : .dropped .topicNoDeadLetter = outcome := Plan.Ending.finished.inj h
      exact ⟨_, _, .topic hkind⟩
  | queue =>
      rw [Plan.deadLetter, if_neg (by simp [Message.isTopic, hkind])] at h
      obtain ⟨reply, s₁, hmove, h⟩ := Plan.returns_of_finished h
      cases reply with
      | ok _ =>
          obtain ⟨_, s₂, htrace, h⟩ := Plan.returns_of_finished h
          obtain ⟨_, s₃, hcount, h⟩ := Plan.returns_of_finished h
          obtain rfl : .deadLettered = outcome := Plan.Ending.finished.inj h
          exact ⟨_, _, .moved hkind hmove htrace hcount⟩
      | error error =>
          obtain rfl : .dropped .deadLetterFailed = outcome := Plan.Ending.finished.inj h
          exact ⟨_, _, .refused hkind hmove⟩

theorem recovered_of_finished (h : ((Plan.recover d).run e t s).1 = .finished outcome) :
    ∃ acts site, Recovered e d s.toSite acts outcome site := by
  cases hdurable : d.subscription.durable with
  | true =>
      rw [Plan.recover, if_pos hdurable] at h
      obtain ⟨_, s₁, hrequeue, h⟩ := Plan.returns_of_finished h
      obtain ⟨_, s₂, hcount, h⟩ := Plan.returns_of_finished h
      obtain rfl : .requeued = outcome := Plan.Ending.finished.inj h
      exact ⟨_, _, .requeued hdurable hrequeue hcount⟩
  | false =>
      rw [Plan.recover, if_neg (by simp [hdurable]), Plan.run] at h
      cases hdisposable : (Query.disposable d.message).holds s.books with
      | true =>
          rw [hdisposable] at h
          obtain rfl : .dropped .disposable = outcome := Plan.Ending.finished.inj h
          exact ⟨_, _, .disposable hdurable hdisposable⟩
      | false =>
          rw [hdisposable] at h
          obtain rfl : .dropped .subscriberClosed = outcome := Plan.Ending.finished.inj h
          exact ⟨_, _, .closed hdurable hdisposable⟩

/-- A send that returned is followed by what its reply asks for. -/
theorem policy_of_sent (hsendable : Sendable d failed s.books)
    (h : ((Plan.call (.send d) (Plan.afterSend queue d)).run e t s).1 = .finished outcome) :
    ∃ acts site, Policy e queue d failed s.toSite acts outcome site := by
  obtain ⟨reply, s₁, hsend, h⟩ := Plan.returns_of_finished h
  cases reply with
  | ok _ =>
      obtain ⟨_, s₂, htrace, h⟩ := Plan.returns_of_finished h
      obtain ⟨_, s₃, hcount, h⟩ := Plan.returns_of_finished h
      obtain rfl : .delivered = outcome := Plan.Ending.finished.inj h
      exact ⟨_, _, .delivered hsendable hsend htrace hcount⟩
  | error failure =>
      cases failure with
      | ruleViolation reason =>
          obtain ⟨acts, site, hrouted⟩ := routed_of_finished h
          exact ⟨_, _, .violated hsendable hsend (s₁.takesBack d) hrouted⟩
      | transient reason =>
          obtain ⟨acts, site, hrecovered⟩ := recovered_of_finished h
          exact ⟨_, _, .broken hsendable hsend (s₁.takesBack d) hrecovered⟩
      | unexpected reason =>
          obtain rfl : .unhandled = outcome := Plan.Ending.finished.inj h
          exact ⟨_, _, .unclassified hsendable hsend⟩

/-- Whenever the plan of a delivery comes to its end, a rule of the policy applies. -/
theorem policy_of_finished
    (h : ((Plan.dispatch queue d failed).run e t s).1 = .finished outcome) :
    ∃ acts site, Policy e queue d failed s.toSite acts outcome site := by
  cases hfailed : failed with
  | true =>
      rw [Plan.dispatch, if_pos hfailed] at h
      obtain ⟨acts, site, hrouted⟩ := routed_of_finished h
      exact ⟨_, _, .flagged rfl (s.toSite.takesBack d) hrouted⟩
  | false =>
      rw [Plan.dispatch, if_neg (by simp [hfailed]), Plan.run] at h
      cases hstale : (Query.stale d.message).holds s.books with
      | true =>
          rw [hstale] at h
          obtain ⟨_, s₁, htrace, h⟩ := Plan.returns_of_finished h
          obtain rfl : .dropped .stale = outcome := Plan.Ending.finished.inj h
          exact ⟨_, _, .stale rfl hstale (s.toSite.takesBack d) htrace⟩
      | false =>
          rw [hstale, Plan.run] at h
          cases hactive : (Query.active d.subscription).holds s.books with
          | true =>
              rw [hactive] at h
              exact policy_of_sent ⟨rfl, hstale, hactive⟩ h
          | false =>
              rw [hactive] at h
              obtain ⟨acts, site, hrecovered⟩ := recovered_of_finished h
              exact ⟨_, _, .inactive rfl hstale hactive (s.toSite.takesBack d) hrecovered⟩

end Rules

/-! ## Handlers keep to the policy -/

/-- In this turn, a delivery was dealt with by these acts and came to this end. -/
structure Turn.Settles (turn : Turn σ) (h : Handler) (d : Delivery) (s : Scene σ) (acts : List Act)
    (outcome : Outcome) (site : Site σ) : Prop where
  answered : turn.scene.Answered s
  result : turn.result = .reported ⟨d.message.id, d.subscription.channel, outcome⟩
  slot : turn.slot = .empty
  site : turn.scene.toSite = site
  calls : turn.scene.calls = s.calls ++ acts.filterMap Act.call?
  seen : turn.handler.tally.seen = h.tally.seen + 1
  owned : turn.handler.tally.owned = h.tally.owned + 1
  /-- Every time that the delivery was taken back is counted. -/
  rollbacks : turn.handler.tally.rollbacks =
    h.tally.rollbacks + UInt64.ofNat (acts.count .takeBack)
  /-- The delivery is counted under its outcome, and under no other. -/
  counters : ∀ kind, turn.handler.tally.counter kind =
    if outcome.kind = kind then h.tally.counter kind + 1 else h.tally.counter kind
  handler : turn.handler = { h with tally := turn.handler.tally }

/-- A handler that is shown this delivery in a slot does what the policy says. -/
structure Handler.FollowsPolicy (h : Handler) (e : Environment σ) (slot : Slot) (d : Delivery)
    (sequence : Nat) (last : Bool) (s : Scene σ) : Prop where
  /-- When every call returns, a rule of the policy applies. -/
  applies : (h.handle e slot sequence last s).scene.Answered s →
    ∃ acts outcome site, Policy e h.queue d slot.failed s.toSite acts outcome site
  /-- When a rule applies, that and nothing else is done. -/
  settles : ∀ acts outcome site, Policy e h.queue d slot.failed s.toSite acts outcome site →
    (h.handle e slot sequence last s).Settles h d s acts outcome site

namespace Handler

variable {h : Handler} {e : Environment σ} {slot : Slot} {d : Delivery} {s : Scene σ}

theorem finished_of_answered (hclaim : h.claim? slot = some d) {sequence : Nat} {last : Bool}
    (hs : (h.handle e slot sequence last s).scene.Answered s) :
    ∃ outcome, (h.course e d slot.failed sequence last s).1 = .finished outcome := by
  obtain ⟨calls, hcalls, hreturns⟩ := hs
  rw [handle_of_claim hclaim, calls_conclude] at hcalls
  rw [handle_of_claim hclaim, returns_conclude] at hreturns
  exact Plan.finished_of_answered ⟨calls, by rw [calls_see, ← hcalls, course],
    by rw [returns_see, ← hreturns, course]⟩

/-- What the plan of a delivery does, the handler does. -/
theorem settles_of_does {outcome : Outcome} {acts : List Act} {site : Site σ} {sequence : Nat}
    {last : Bool} (hclaim : h.claim? slot = some d)
    (hdoes : (Plan.dispatch h.queue d slot.failed).Does e h.tally.countSeen.countOwned
      (h.see sequence last s).2 acts outcome site) :
    (h.handle e slot sequence last s).Settles h d s acts outcome site := by
  rw [handle_of_claim hclaim, course]
  obtain ⟨hending, htally, hsite, hcalls, hreturns⟩ := hdoes
  rw [calls_see] at hcalls
  rw [returns_see] at hreturns
  rcases hrun : (Plan.dispatch h.queue d slot.failed).run e h.tally.countSeen.countOwned
    (h.see sequence last s).2 with ⟨ending, t, y⟩
  rw [hrun] at hending htally hsite hcalls hreturns
  obtain rfl : ending = .finished outcome := hending
  obtain rfl : t = { h.tally.countSeen.countOwned with
    rollbacks := h.tally.rollbacks + UInt64.ofNat (acts.count .takeBack) } := htally
  refine ⟨⟨_, hcalls, hreturns⟩, rfl, rfl, hsite, hcalls, ?_, ?_, ?_, ?_, rfl⟩
  · exact Tally.seen_countOutcome _ outcome
  · exact Tally.owned_countOutcome _ outcome
  · exact Tally.rollbacks_countOutcome _ outcome
  · intro kind
    refine (Tally.counter_countOutcome _ outcome kind).trans ?_
    cases kind <;> rfl

theorem followsPolicy_of_claim (hclaim : h.claim? slot = some d) (sequence : Nat) (last : Bool)
    (s : Scene σ) : h.FollowsPolicy e slot d sequence last s where
  applies := by
    intro hs
    obtain ⟨outcome, hend⟩ := finished_of_answered hclaim hs
    obtain ⟨acts, site, hpolicy⟩ := policy_of_finished hend
    rw [toSite_see] at hpolicy
    exact ⟨acts, outcome, site, hpolicy⟩
  settles := by
    intro acts outcome site hpolicy
    rw [← h.toSite_see sequence last s] at hpolicy
    exact settles_of_does hclaim (hpolicy.does _)

/-- Whatever the state of its message and its subscription, an event that a handler owns is dealt
with as the policy says. -/
theorem follows_policy (e : Environment σ) (howns : h.owns slot) (sequence : Nat) (last : Bool)
    (s : Scene σ) :
    ∃ d, slot.delivery = some d ∧ h.FollowsPolicy e slot d sequence last s := by
  obtain ⟨d, hclaim⟩ := owns_iff.mp howns
  exact ⟨d, (claim?_eq_some_iff.mp hclaim).1, followsPolicy_of_claim hclaim sequence last s⟩

/-- A send waits for its permit, lets the subscription lapse and violates a rule: the message is
taken back and moved to the dead letters, and every call returns. -/
theorem follows_policy_rehearsal :
    let e := (Scripted.environment true).patient Rehearsal.permit
    let slot := Slot.holding Rehearsal.delivery false
    let s := Rehearsal.scene
      { waits := true, deactivates := true, ending := .fails (.ruleViolation "size") }
    let turn := Rehearsal.handler.handle e slot 0 true s
    turn.scene.Answered s ∧ turn.result = .reported ⟨⟨7⟩, ⟨0, 0⟩, .deadLettered⟩ ∧
      turn.handler.tally = { seen := 1, owned := 1, rollbacks := 1, deadLettered := 1 } ∧
      ∃ d, slot.delivery = some d ∧ Rehearsal.handler.FollowsPolicy e slot d 0 true s := by
  refine ⟨⟨[.send Rehearsal.delivery, .moveToDeadLetters Rehearsal.delivery.message "orders" "dead",
    .trace .deadLettered Rehearsal.delivery.message, .count .deadLettered], ?_, ?_⟩, ?_, ?_, ?_⟩
  · decide
  · decide
  · decide
  · decide
  · exact follows_policy _ (owns_iff.mpr ⟨_, Rehearsal.claim?_holding⟩) _ _ _

end Handler

end ShardedDelivery
