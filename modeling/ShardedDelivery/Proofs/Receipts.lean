import ShardedDelivery.Proofs.Plan.Phases
import ShardedDelivery.Proofs.Scripted

/-! # Receipts

A callee that accepts what it is asked gives a receipt for it: for a send, a requeued message or a
dead letter. A delivery that ends without a crash has got the receipt that its outcome claims, and
no other; the store of the services holds what the receipts say. -/

namespace ShardedDelivery

/-- Something that a callee has accepted. -/
inductive Receipt where
  | sent (d : Delivery)
  | requeued (m : Message)
  | moved (m : MessageId) (destination queue : String)
deriving DecidableEq, Repr

namespace Receipt

def sent? : Receipt → Option Delivery
  | sent d => some d
  | _ => none

def requeued? : Receipt → Option Message
  | requeued m => some m
  | _ => none

def moved? : Receipt → Option (MessageId × String × String)
  | moved m destination queue => some (m, destination, queue)
  | _ => none

end Receipt

/-- The receipt for a call that has returned. -/
def Call.receipt? : Call → Bool → Option Receipt
  | .send d, true => some (.sent d)
  | .requeue m, true => some (.requeued m)
  | .moveToDeadLetters m destination queue, true => some (.moved m.id destination queue)
  | _, _ => none

/-- The receipt that an outcome of the delivery claims, when the handler has this queue for dead
letters. -/
def Outcome.receipt? (queue : String) (d : Delivery) : Outcome → Option Receipt
  | .delivered => some (.sent d)
  | .requeued => some (.requeued d.message)
  | .deadLettered => some (.moved d.message.id d.message.destination queue)
  | .dropped _ | .unhandled => none

def Entry.receipt? : Entry → Option Receipt
  | .returned c accepted => c.receipt? accepted
  | _ => none

namespace Scene

variable {σ : Type} (s : Scene σ) (c : Call)

/-- The receipts noted in the journal. -/
def receipts : List Receipt := s.journal.filterMap Entry.receipt?

@[simp] theorem receipts_log (line : Line) : (s.log line).receipts = s.receipts := by
  simp [receipts, log, note, Entry.receipt?]

@[simp] theorem receipts_edit (change : Edit) : (s.edit change).receipts = s.receipts := rfl

@[simp] theorem receipts_moveTo (site : Site σ) : (s.moveTo site).receipts = s.receipts := rfl

@[simp] theorem receipts_note_called (found : Books) :
    (s.note (.called c found)).receipts = s.receipts := by
  simp [receipts, note, Entry.receipt?]

@[simp] theorem receipts_noteEnd_ok (reply : c.Reply) :
    (s.noteEnd c (.ok reply)).receipts = s.receipts ++ (c.receipt? (c.accepted reply)).toList := by
  cases h : c.receipt? (c.accepted reply) <;> simp [receipts, noteEnd, note, Entry.receipt?, h]

@[simp] theorem receipts_noteEnd_error (crash : Crash) :
    (s.noteEnd c (.error crash)).receipts = s.receipts := rfl

end Scene

/-! ## Stores -/

/-- What a dead letter says about itself, apart from when it was moved. -/
def DeadLetter.entry (l : DeadLetter) : MessageId × String × String :=
  (l.message, l.destination, l.queue)

namespace Store

/-- Another store holds what this one holds and, after that, what these receipts say. -/
structure Gains (s : Store) (receipts : List Receipt) (s' : Store) : Prop where
  requeued : s'.requeued = s.requeued ++ receipts.filterMap Receipt.requeued?
  deadLetters : ∃ fresh, s'.deadLetters = s.deadLetters ++ fresh ∧
    fresh.map DeadLetter.entry = receipts.filterMap Receipt.moved?

variable {s s' s'' : Store} {receipts later : List Receipt}

theorem Gains.refl (s : Store) : s.Gains [] s := ⟨by simp, [], by simp, rfl⟩

theorem Gains.trans (h : s.Gains receipts s') (h' : s'.Gains later s'') :
    s.Gains (receipts ++ later) s'' := by
  obtain ⟨fresh, hfresh, hentries⟩ := h.deadLetters
  obtain ⟨fresh', hfresh', hentries'⟩ := h'.deadLetters
  constructor
  · rw [h'.requeued, h.requeued, List.filterMap_append, List.append_assoc]
  · refine ⟨fresh ++ fresh', by rw [hfresh', hfresh, List.append_assoc], ?_⟩
    rw [List.map_append, hentries, hentries', List.filterMap_append]

/-- What a call that has ended so has left of a store: what its receipt says if it returned, and
anything on top of what was there if it broke off. -/
def Banks (s : Store) (c : Call) (s' : Store) : Except Crash c.Reply → Prop
  | .ok reply => s.Gains (c.receipt? (c.accepted reply)).toList s'
  | .error _ => ∃ receipts, s.Gains receipts s'

theorem banks_requeue (s : Store) (m : Message) : s.Banks (.requeue m) (s.requeue m) (.ok ()) :=
  ⟨by simp [requeue, Call.receipt?, Call.accepted, Receipt.requeued?], [], by simp [requeue],
    by simp [Call.receipt?, Call.accepted, Receipt.moved?]⟩

theorem banks_moveToDeadLetters (s : Store) (m : Message) (destination queue : String)
    (now : UInt64) :
    s.Banks (.moveToDeadLetters m destination queue)
      (s.moveToDeadLetters m destination queue now).2
      (.ok (s.moveToDeadLetters m destination queue now).1) := by
  unfold moveToDeadLetters
  split
  · exact .refl s
  · exact ⟨by simp [Call.receipt?, Call.accepted, Receipt.requeued?],
      [⟨m.id, destination, queue, now⟩], rfl,
      by simp [Call.receipt?, Call.accepted, Receipt.moved?, DeadLetter.entry]⟩

/-- Calls that are no business of the store leave it as it is. -/
theorem banks_self (s : Store) {c : Call}
    (hc : ∀ accepted, ∀ receipt ∈ c.receipt? accepted,
      receipt.requeued? = none ∧ receipt.moved? = none)
    (result : Except Crash c.Reply) : s.Banks c s result := by
  cases result with
  | error crash => exact ⟨[], .refl s⟩
  | ok reply =>
      cases hr : c.receipt? (c.accepted reply) with
      | none => simpa [Banks, hr] using Gains.refl s
      | some receipt =>
          obtain ⟨hrequeued, hmoved⟩ := hc _ receipt hr
          simp only [Banks, hr, Option.toList_some]
          exact ⟨by simp [hrequeued], [], by simp, by simp [hmoved]⟩

end Store

variable {σ : Type} {e : Environment σ} {store : σ → Store}

/-- The services keep in a store what they accept, and nobody else among the callees touches it. -/
structure Environment.Keeps (e : Environment σ) (store : σ → Store) : Prop where
  ended : ∀ c s result s', e.answer c s = (.ended result, s') →
    (store s.outside).Banks c (store s'.outside) result
  waits : ∀ c s mark s', e.answer c s = (.waiting mark, s') →
    (store s.outside).Gains [] (store s'.outside)
  late : ∀ c mark s result s', e.answerLate c mark s = some (result, s') →
    (store s.outside).Banks c (store s'.outside) result

namespace Scripted

theorem store_resume {d : Delivery} {mark : Nat} {s s' : Site Cast}
    {result : Except Crash (Except SendFailure Unit)} (h : resume d mark s = some (result, s')) :
    s'.outside.store = s.outside.store := by
  obtain ⟨u, hu, hplay⟩ := Option.map_eq_some_iff.mp h
  obtain rfl : s' = (play _ d u).2 := (congrArg Prod.snd hplay).symm
  unfold usePermit? at hu
  split at hu
  · contradiction
  · cases hu
    rfl

theorem store_send (d : Delivery) (s : Site Cast) :
    (send d s).2.outside.store = s.outside.store := by
  rw [send_eq]
  split
  · split
    · rename_i hresume
      have hstore := store_resume hresume
      exact hstore
    · rfl
  · rfl

theorem banks_requeue (m : Message) (s : Site Cast) :
    s.outside.store.Banks (.requeue m) (requeue m s).2.outside.store (requeue m s).1 := by
  unfold requeue
  split
  · exact ⟨[], .refl _⟩
  · exact s.outside.store.banks_requeue m

theorem banks_moveToDeadLetters (m : Message) (destination queue : String) (s : Site Cast) :
    s.outside.store.Banks (.moveToDeadLetters m destination queue)
      (moveToDeadLetters m destination queue s).2.outside.store
      (moveToDeadLetters m destination queue s).1 := by
  unfold moveToDeadLetters
  split
  · exact ⟨[], .refl _⟩
  · exact .refl _
  · exact s.outside.store.banks_moveToDeadLetters m destination queue 0

/-- The scripted services keep what they accept in the store of the cast. -/
theorem keeps (listening : Bool) : (environment listening).Keeps Cast.store where
  ended := by
    intro c s result s' h
    cases c with
    | send d =>
        have hstore := store_send d s
        rw [show send d s = (.ended result, s') from h] at hstore
        rw [hstore]
        exact Store.banks_self _ (by simp [Call.receipt?, Receipt.requeued?, Receipt.moved?]) result
    | requeue m =>
        cases h
        exact banks_requeue m s
    | moveToDeadLetters m destination queue =>
        cases h
        exact banks_moveToDeadLetters m destination queue s
    | trace kind m =>
        cases h
        exact Store.banks_self _ (by simp [Call.receipt?]) _
    | count metric =>
        cases h
        exact Store.banks_self _ (by simp [Call.receipt?]) _
  waits := by
    intro c s mark s' h
    obtain ⟨d, rfl⟩ : ∃ d, c = .send d := by
      cases c with
      | send d => exact ⟨d, rfl⟩
      | _ => cases h
    have hstore := store_send d s
    rw [show send d s = (.waiting mark, s') from h] at hstore
    rw [hstore]
    exact .refl _
  late := by
    intro c mark s result s' h
    cases c with
    | send d =>
        rw [store_resume h]
        exact Store.banks_self _ (by simp [Call.receipt?, Receipt.requeued?, Receipt.moved?]) result
    | _ => contradiction

end Scripted

/-! ## Plans -/

namespace Plan

/-- However the calls of a plan are answered, at its end it has got just the receipt that its
outcome claims, counting those that it had got before. -/
def Claims (receipt? : Outcome → Option Receipt) : List Receipt → Plan → Prop
  | got, finish outcome => got = (receipt? outcome).toList
  | got, log _ rest => rest.Claims receipt? got
  | got, edit _ rest => rest.Claims receipt? got
  | got, countRollback rest => rest.Claims receipt? got
  | got, check _ rest => ∀ answer, (rest answer).Claims receipt? got
  | got, call c rest =>
      ∀ reply, (rest reply).Claims receipt? (got ++ (c.receipt? (c.accepted reply)).toList)

section Shapes

variable (queue : String) (d : Delivery) {receipt? : Outcome → Option Receipt}
  {got : List Receipt} {rest : Plan}

theorem claims_rollback (h : rest.Claims receipt? got) : (rollback d rest).Claims receipt? got := h

theorem claims_deadLetter : (deadLetter queue d.message).Claims (Outcome.receipt? queue d) [] := by
  unfold deadLetter
  split
  · rfl
  · intro reply
    cases reply with
    | ok _ => exact fun _ _ => rfl
    | error _ => rfl

theorem claims_recover : (recover d).Claims (Outcome.receipt? queue d) [] := by
  unfold recover
  split
  · exact fun _ _ => rfl
  · intro answer
    cases answer <;> rfl

theorem claims_afterSend (reply : Except SendFailure Unit) :
    (afterSend queue d reply).Claims (Outcome.receipt? queue d)
      ((Call.send d).receipt? ((Call.send d).accepted reply)).toList := by
  cases reply with
  | ok _ => exact fun _ _ => rfl
  | error failure =>
      cases failure with
      | ruleViolation reason => exact claims_rollback d (claims_deadLetter queue d)
      | transient reason => exact claims_rollback d (claims_recover queue d)
      | unexpected reason => rfl

theorem claims_dispatch (failed : Bool) :
    (dispatch queue d failed).Claims (Outcome.receipt? queue d) [] := by
  unfold dispatch
  split
  · exact claims_rollback d (claims_deadLetter queue d)
  · intro stale
    cases stale with
    | true => exact claims_rollback d fun _ => rfl
    | false =>
        intro active
        cases active with
        | false => exact claims_rollback d (claims_recover queue d)
        | true => exact claims_afterSend queue d

end Shapes

/-- The receipt that the end of a plan claims. -/
def Ending.receipt? (receipt? : Outcome → Option Receipt) : Ending → Option Receipt
  | .finished outcome => receipt? outcome
  | _ => none

end Plan

/-! ## What is added to a scene -/

/-- What has been added from one scene to another: these receipts, what the store has gained, and so
many calls and returns. -/
structure Scene.Adds (store : σ → Store) (s : Scene σ) (receipts gained : List Receipt)
    (calls returns : Nat) (s' : Scene σ) : Prop where
  noted : s'.receipts = s.receipts ++ receipts
  stored : (store s.outside).Gains gained (store s'.outside)
  backed : receipts.Sublist gained
  asked : s'.calls.length = s.calls.length + calls
  replied : s'.returns.length = s.returns.length + returns

namespace Scene.Adds

variable {s s' s'' : Scene σ} {receipts gained later gained' : List Receipt}
  {calls returns calls' returns' : Nat}

/-- Nothing is added when the store, the receipts and the calls stay as they are. -/
theorem none (hstore : (store s.outside).Gains [] (store s'.outside))
    (hreceipts : s'.receipts = s.receipts) (hcalls : s'.calls = s.calls)
    (hreturns : s'.returns = s.returns) : s.Adds store [] [] 0 0 s' :=
  ⟨by simp [hreceipts], hstore, .slnil, by simp [hcalls], by simp [hreturns]⟩

theorem trans (h : s.Adds store receipts gained calls returns s')
    (h' : s'.Adds store later gained' calls' returns' s'') :
    s.Adds store (receipts ++ later) (gained ++ gained') (calls + calls') (returns + returns')
      s'' where
  noted := by rw [h'.noted, h.noted, List.append_assoc]
  stored := h.stored.trans h'.stored
  backed := h.backed.append h'.backed
  asked := by rw [h'.asked, h.asked, Nat.add_assoc]
  replied := by rw [h'.replied, h.replied, Nat.add_assoc]

theorem after (h : s'.Adds store receipts gained calls returns s'')
    (hnone : s.Adds store [] [] 0 0 s') : s.Adds store receipts gained calls returns s'' := by
  simpa using hnone.trans h

/-- A call that has returned adds its receipt, to the journal and to the store. -/
theorem answered_ok {c : Call} {reply : c.Reply} {site : Site σ}
    (h : (store s.outside).Banks c (store site.outside) (.ok reply)) :
    s.Adds store (c.receipt? (c.accepted reply)).toList (c.receipt? (c.accepted reply)).toList 1 1
      (s.answered c (.ok reply) site) :=
  ⟨by simp [Scene.answered], h, .refl _, by simp, by simp⟩

/-- A call that has broken off adds no receipt. -/
theorem answered_error {c : Call} {crash : Crash} {site : Site σ}
    (h : (store s.outside).Banks c (store site.outside) (.error crash)) :
    ∃ gained, s.Adds store [] gained 1 0 (s.answered c (.error crash) site) := by
  obtain ⟨gained, hgained⟩ := h
  exact ⟨gained, by simp [Scene.answered], hgained, List.nil_sublist _, by simp, by simp⟩

/-- A call that returns late adds its receipt, having been noted before. -/
theorem returned_late {c : Call} {reply : c.Reply} {site : Site σ}
    (h : (store s.outside).Banks c (store site.outside) (.ok reply)) :
    s.Adds store (c.receipt? (c.accepted reply)).toList (c.receipt? (c.accepted reply)).toList 0 1
      ((s.moveTo site).noteEnd c (.ok reply)) :=
  ⟨by simp, h, .refl _, by simp, by simp [Scene.noteEnd]⟩

theorem called {c : Call} {site : Site σ}
    (h : (store s.outside).Gains [] (store site.outside)) :
    s.Adds store [] [] 1 0 ((s.note (.called c s.books)).moveTo site) :=
  ⟨by simp, h, .slnil, by simp, by simp⟩

end Scene.Adds

/-- A run that comes to its end has got the receipt that its outcome claims, the store has gained
that and nothing else, and all calls have returned. In any other run one call has not. -/
theorem Plan.adds_run (he : e.Keeps store) {receipt? : Outcome → Option Receipt} {plan : Plan}
    {got : List Receipt} (h : plan.Claims receipt? got) (t : Tally) (s : Scene σ) :
    ∃ receipts gained calls returns,
      s.Adds store receipts gained calls returns (plan.run e t s).2.2 ∧
      match (plan.run e t s).1 with
      | .finished outcome =>
          got ++ receipts = (receipt? outcome).toList ∧ gained = receipts ∧ returns = calls
      | _ => returns < calls := by
  induction plan generalizing got t s with
  | finish outcome =>
      have hnone : s.Adds store [] [] 0 0 s := .none (.refl _) rfl rfl rfl
      exact ⟨[], [], 0, 0, hnone, by simpa [Claims] using h, rfl, rfl⟩
  | log line rest ih =>
      obtain ⟨receipts, gained, calls, returns, hadds, hend⟩ := ih h t (s.log line)
      have hnone : s.Adds store [] [] 0 0 (s.log line) :=
        .none (.refl _) (s.receipts_log line) (s.calls_log line) (s.returns_log line)
      exact ⟨receipts, gained, calls, returns, hadds.after hnone, hend⟩
  | edit change rest ih =>
      obtain ⟨receipts, gained, calls, returns, hadds, hend⟩ := ih h t (s.edit change)
      have hnone : s.Adds store [] [] 0 0 (s.edit change) :=
        .none (.refl _) (s.receipts_edit change) (s.calls_edit change) (s.returns_edit change)
      exact ⟨receipts, gained, calls, returns, hadds.after hnone, hend⟩
  | countRollback rest ih => exact ih h t.countRollback s
  | check q rest ih => exact ih _ (h _) t s
  | call c rest ih =>
      rcases ha : e.answer c s.toSite with ⟨(crash | reply) | mark, site⟩
      · obtain ⟨gained, hadds⟩ := Scene.Adds.answered_error (he.ended c s.toSite _ site ha)
        rw [run_call_crash ha]
        exact ⟨[], gained, 1, 0, hadds, Nat.zero_lt_one⟩
      · have hcall := Scene.Adds.answered_ok (he.ended c s.toSite _ site ha)
        obtain ⟨receipts, gained, calls, returns, hadds, hend⟩ :=
          ih reply (h reply) t (s.answered c (.ok reply) site)
        rw [run_call_ok ha]
        refine ⟨_, _, _, _, hcall.trans hadds, ?_⟩
        split at hend
        · obtain ⟨hclaim, rfl, rfl⟩ := hend
          exact ⟨by rw [← hclaim, List.append_assoc], rfl, rfl⟩
        · exact Nat.add_lt_add_left hend 1
      · rw [run_call_waiting ha]
        exact ⟨[], [], 1, 0, .called (he.waits c s.toSite mark site ha), Nat.zero_lt_one⟩

end ShardedDelivery
