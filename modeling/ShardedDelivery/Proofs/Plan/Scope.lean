import ShardedDelivery.Plan.Run

/-! # The scope of a plan

The plan of a delivery reads and edits nothing but the records of its message and its
subscription, and sends nothing but the delivery itself, at most once. -/

namespace ShardedDelivery

/-- The delivery that a call sends. -/
def Call.send? : Call → Option Delivery
  | .send d => some d
  | _ => none

/-- An edit of the records of this delivery. -/
def Edit.Concerns (d : Delivery) : Edit → Prop
  | .setStale m _ | .setDisposable m _ | .schedule m _ | .unschedule m _ | .countFailure m _ =>
      m = d.message
  | .setActive s _ | .track s _ | .untrack s _ => s = d.subscription

/-- What the books hold on the message and the subscription of a delivery. -/
def Books.records (b : Books) (d : Delivery) : MessageRecord × SubscriptionRecord :=
  (b.messages.get d.message, b.subscriptions.get d.subscription)

namespace Edit.Concerns

variable {d : Delivery} {change : Edit} {b b' : Books}

theorem messages_eq (h : change.Concerns d) (b : Books) {m : Message} (hm : m ≠ d.message) :
    (b.apply change).messages.get m = b.messages.get m := by
  cases change <;> simp_all [Concerns, Books.apply, Table.get_modify, Ne.symm]

theorem subscriptions_eq (h : change.Concerns d) (b : Books) {s : Subscription}
    (hs : s ≠ d.subscription) : (b.apply change).subscriptions.get s = b.subscriptions.get s := by
  cases change <;> simp_all [Concerns, Books.apply, Table.get_modify, Ne.symm]

/-- What an edit makes of the records of a delivery depends on nothing but them. -/
theorem records_eq (h : change.Concerns d) (hb : b.records d = b'.records d) :
    (b.apply change).records d = (b'.apply change).records d := by
  simp only [Books.records, Prod.mk.injEq] at hb
  cases change <;> simp_all [Concerns, Books.records, Books.apply, Table.get_modify]

end Edit.Concerns

/-- Edits that concern a delivery change its records by what these are, and no others. -/
theorem Books.applyAll_spec {d : Delivery} {changes : List Edit}
    (h : ∀ change ∈ changes, change.Concerns d) (b b' : Books) :
    (b.records d = b'.records d →
      (b.applyAll changes).records d = (b'.applyAll changes).records d) ∧
    (∀ m, m ≠ d.message → (b.applyAll changes).messages.get m = b.messages.get m) ∧
    ∀ s, s ≠ d.subscription → (b.applyAll changes).subscriptions.get s = b.subscriptions.get s := by
  induction changes generalizing b b' with
  | nil => exact ⟨id, fun _ _ => rfl, fun _ _ => rfl⟩
  | cons change changes ih =>
      have hchange := h change List.mem_cons_self
      obtain ⟨hrecords, hmessages, hsubscriptions⟩ :=
        ih (fun e he => h e (List.mem_cons_of_mem _ he)) (b.apply change) (b'.apply change)
      exact ⟨fun hb => hrecords (hchange.records_eq hb),
        fun m hm => (hmessages m hm).trans (hchange.messages_eq b hm),
        fun s hs => (hsubscriptions s hs).trans (hchange.subscriptions_eq b hs)⟩

/-- A query of the records of this delivery. -/
def Query.Concerns (d : Delivery) : Query → Prop
  | .stale m | .disposable m => m = d.message
  | .active s => s = d.subscription

namespace Plan

/-- The call that a plan starts with, if it does. -/
def calls : Plan → List Call
  | call c _ => [c]
  | _ => []

theorem length_calls_le (plan : Plan) : plan.calls.length ≤ 1 := by
  cases plan <;> simp [calls]

/-- A plan that concerns only this delivery and sends it at most `k` times. -/
def Serves (d : Delivery) : Nat → Plan → Prop
  | _, finish _ => True
  | k, log _ rest => Serves d k rest
  | k, edit change rest => change.Concerns d ∧ Serves d k rest
  | k, countRollback rest => Serves d k rest
  | k, check q rest => q.Concerns d ∧ ∀ answer, Serves d k (rest answer)
  | k, call c rest => (∀ d', c.send? = some d' → d' = d) ∧
      ∃ k', k' + c.send?.toList.length ≤ k ∧ ∀ reply, Serves d k' (rest reply)

/-- What a step of such a plan leads to. -/
def Progress.Serves (d : Delivery) (k : Nat) : Progress → Prop
  | .going plan => plan.Serves d k
  | .ended (.waiting c _ rest) => c = .send d ∧ ∀ reply, (rest reply).Serves d k
  | .ended _ => True

section Scopes

variable {d : Delivery} {k : Nat}

theorem serves_edits {changes : List Edit} {rest : Plan} (hc : ∀ c ∈ changes, c.Concerns d)
    (hr : rest.Serves d k) : (edits changes rest).Serves d k := by
  induction changes with
  | nil => exact hr
  | cons change changes ih =>
      refine ⟨hc change (by simp), ih ?_⟩
      intro c hmem
      exact hc c (List.mem_cons_of_mem _ hmem)

theorem serves_rollback {rest : Plan} (hr : rest.Serves d k) : (rollback d rest).Serves d k := by
  refine serves_edits ?_ hr
  intro c hc
  simp only [Edit.rollback, List.mem_cons, List.not_mem_nil, or_false] at hc
  rcases hc with rfl | rfl | rfl <;> rfl

/-- A call of a service is no send. -/
theorem serves_call {c : Call} {rest : c.Reply → Plan} (hc : c.send? = none)
    (hr : ∀ reply, (rest reply).Serves d k) : (call c rest).Serves d k :=
  ⟨by simp [hc], k, by simp [hc], hr⟩

theorem serves_trace {kind : TraceKind} {m : Message} {rest : Plan} (hr : rest.Serves d k) :
    (trace kind m rest).Serves d k :=
  serves_call rfl fun _ => hr

theorem serves_count {metric : Metric} {rest : Plan} (hr : rest.Serves d k) :
    (count metric rest).Serves d k :=
  serves_call rfl fun _ => hr

theorem serves_deadLetter (queue : String) (m : Message) : (deadLetter queue m).Serves d k := by
  unfold deadLetter
  split
  · trivial
  · refine serves_call rfl fun reply => ?_
    cases reply with
    | ok _ => exact serves_trace (serves_count trivial)
    | error _ => trivial

theorem serves_recover : (recover d).Serves d k := by
  unfold recover
  split
  · exact serves_call rfl fun _ => serves_count trivial
  · refine ⟨rfl, fun answer => ?_⟩
    cases answer <;> trivial

theorem serves_afterSend (queue : String) (reply : Except SendFailure Unit) :
    (afterSend queue d reply).Serves d k := by
  cases reply with
  | ok _ => exact serves_trace (serves_count trivial)
  | error failure =>
      cases failure with
      | ruleViolation reason => exact serves_rollback (serves_deadLetter queue d.message)
      | transient reason => exact serves_rollback serves_recover
      | unexpected reason => trivial

/-- The recovery policy keeps to its delivery and sends it at most once. -/
theorem serves_dispatch (queue : String) (d : Delivery) (failed : Bool) :
    (dispatch queue d failed).Serves d 1 := by
  unfold dispatch
  split
  · exact serves_rollback (serves_deadLetter queue d.message)
  · refine ⟨rfl, fun stale => ?_⟩
    cases stale with
    | true => exact serves_rollback (serves_trace trivial)
    | false =>
        refine ⟨rfl, fun active => ?_⟩
        cases active with
        | false => exact serves_rollback serves_recover
        | true =>
            refine ⟨?_, 0, Nat.le_refl 1, fun reply => serves_afterSend queue reply⟩
            intro d' h
            cases h
            rfl

end Scopes

variable {σ : Type}

theorem Progress.serves_ofResult {d : Delivery} {k : Nat} {c : Call} {rest : c.Reply → Plan}
    (hr : ∀ reply, (rest reply).Serves d k) (result : Except Crash c.Reply) :
    (Progress.ofResult rest result).Serves d k := by
  cases result with
  | ok reply => exact hr reply
  | error crash => trivial

/-- Only sends wait. -/
theorem send_of_waiting {e : Environment σ} {c : Call} {scene scene' : Scene σ} {mark : Nat}
    (h : scene.call e c = (.waiting mark, scene')) : ∃ d, c = .send d := by
  cases c with
  | send d => exact ⟨d, rfl⟩
  | _ => simp [Scene.call, Environment.answer, Prod.map] at h

/-- A step stays in scope. The sends that it makes count against those that are left. -/
theorem Serves.step {d : Delivery} {k : Nat} {plan : Plan} (h : plan.Serves d k)
    (e : Environment σ) (t : Tally) (scene : Scene σ) :
    ∃ k', k' + (plan.calls.filterMap Call.send?).length ≤ k ∧
      (∀ d' ∈ plan.calls.filterMap Call.send?, d' = d) ∧ (plan.step e t scene).1.Serves d k' := by
  cases plan with
  | finish outcome => exact ⟨k, by simp [calls], by simp [calls], trivial⟩
  | log line rest => exact ⟨k, by simp [calls], by simp [calls], h⟩
  | edit change rest => exact ⟨k, by simp [calls], by simp [calls], h.2⟩
  | countRollback rest => exact ⟨k, by simp [calls], by simp [calls], h⟩
  | check q rest => exact ⟨k, by simp [calls], by simp [calls], h.2 _⟩
  | call c rest =>
      obtain ⟨hown, k', hk, hrest⟩ := h
      refine ⟨k', ?_, ?_, ?_⟩
      · cases hc : c.send? <;> simpa [calls, hc] using hk
      · intro d' hd'
        refine hown d' ?_
        simpa [calls] using hd'
      · simp only [Plan.step]
        rcases hcall : scene.call e c with ⟨result | mark, scene'⟩
        · exact Progress.serves_ofResult hrest result
        · obtain ⟨d', rfl⟩ := send_of_waiting hcall
          exact ⟨by rw [hown d' rfl], hrest⟩

end Plan

end ShardedDelivery
