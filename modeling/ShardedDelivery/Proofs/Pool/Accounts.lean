import Mathlib.Algebra.BigOperators.Group.List.Basic
import Mathlib.Algebra.BigOperators.Group.Finset.Piecewise
import ShardedDelivery.Proofs.Conservation
import ShardedDelivery.Proofs.Pool.HandOff
import ShardedDelivery.Proofs.Pool.Order
import ShardedDelivery.Proofs.Pool.Sequences

/-! # The accounts of a pool

Whatever is done in a pool, the counters of its handlers add up to what is on the trail, but for
the rollbacks, which it does not tell. While no handler is stopped, a delivery that was begun has
been reported, or a handler is busy with it. -/

namespace ShardedDelivery

variable {σ : Type} {e : Environment σ}

namespace Tally

/-- The tally without the count of rollbacks. -/
def apart : Tally →+ Tally where
  toFun t := { t with rollbacks := 0 }
  map_zero' := rfl
  map_add' t u := by ext <;> simp only [add_def, add, add_zero]

theorem apart_apply (t : Tally) : apart t = { t with rollbacks := 0 } := rfl

theorem apart_countSeen (t : Tally) : apart t.countSeen = apart t + (0 : Tally).countSeen := by
  ext <;> simp only [apart_apply, countSeen, add_def, zero_def, add, add_zero, zero_add]

theorem apart_countOwned (t : Tally) : apart t.countOwned = apart t + { owned := 1 } := by
  rw [countOwned_eq, map_add]
  rfl

theorem apart_countOutcome (t : Tally) (outcome : Outcome) :
    apart (t.countOutcome outcome) = apart t + (0 : Tally).countOutcome outcome := by
  rw [countOutcome_eq, map_add]
  cases outcome <;> rfl

/-- A counter of which each thing counts one or nothing counts the things that count. -/
theorem get_sum {α : Type} (get : Tally → UInt64) (hzero : get 0 = 0)
    (hadd : ∀ t u, get (t + u) = get t + get u) {f : α → Tally} {p : α → Bool}
    (h : ∀ x, get (f x) = if p x then 1 else 0) (xs : List α) :
    get (xs.map f).sum = UInt64.ofNat (xs.countP p) := by
  induction xs with
  | nil => simpa using hzero
  | cons x xs ih =>
      rw [List.map_cons, List.sum_cons, hadd, ih, h, List.countP_cons, add_comm]
      split <;> simp

end Tally

namespace Deed

/-- What this adds to the counters of its handler, one of `n`, but for rollbacks. -/
def earned (n : Nat) : Deed → Tally
  | begun i _ slot =>
      (0 : Tally).countSeen + if slot.fallsTo n i then { owned := 1 } else 0
  | recorded _ _ report => (0 : Tally).countOutcome report.outcome
  | _ => 0

/-- A handler, one of `n`, begins a delivery of its own. -/
def owns (n : Nat) : Deed → Bool
  | begun i _ slot => slot.fallsTo n i
  | _ => false

/-- An outcome of this kind is counted. -/
def counts (kind : OutcomeKind) : Deed → Bool
  | recorded _ _ report => report.outcome.kind = kind
  | _ => false

/-- Nothing is begun, called or counted. -/
def isMinor : Deed → Bool
  | begun .. | called .. | recorded .. => false
  | _ => true

theorem isMinor_of_moment? {x : Deed} (h : x.moment? = none) : x.isMinor := by
  cases x <;> first | rfl | contradiction

end Deed

namespace Trail

variable (n : Nat)

/-- How many deliveries have been begun by their handlers. -/
def owned (past : Trail) : Nat := past.countP (Deed.owns n)

/-- How many outcomes of a kind have been counted. -/
def counted (kind : OutcomeKind) (past : Trail) : Nat := past.countP (Deed.counts kind)

/-- What the deeds on the trail add to the counters. -/
def earned (past : Trail) : Tally := (past.map (Deed.earned n)).sum

@[simp] theorem earned_nil : earned n [] = 0 := rfl

@[simp] theorem earned_append (past deeds : Trail) :
    earned n (past ++ deeds) = earned n past + earned n deeds := by
  simp [earned]

@[simp] theorem earned_cons (x : Deed) (deeds : Trail) :
    earned n (x :: deeds) = x.earned n + earned n deeds := by
  simp [earned]

@[simp] theorem earned_calls (i s : Nat) (d : Delivery) (calls : List Call) :
    earned n (calls.map (.called i s d)) = 0 := by
  induction calls with
  | nil => rfl
  | cons c calls ih => exact (earned_cons n _ _).trans ((zero_add _).trans ih)

section Minor

variable {deeds : Trail} (h : ∀ x ∈ deeds, x.isMinor)

include h

theorem earned_of_minor : earned n deeds = 0 := by
  refine List.sum_eq_zero ?_
  rintro t ht
  obtain ⟨x, hx, rfl⟩ := List.mem_map.mp ht
  have hminor := h x hx
  cases x <;> first | rfl | contradiction

theorem reached_begun_of_minor (i : Nat) : reached deeds i .begun = 0 := by
  rw [reached, List.length_eq_zero_iff, passed, List.filterMap_eq_nil_iff]
  intro x hx
  have hminor := h x hx
  cases x <;> first | rfl | contradiction | simp

theorem calls_of_minor : calls deeds = [] := by
  rw [calls, List.filterMap_eq_nil_iff]
  intro x hx
  have hminor := h x hx
  cases x <;> first | rfl | contradiction

end Minor

theorem owned_earned (past : Trail) : (past.earned n).owned = UInt64.ofNat (past.owned n) := by
  refine Tally.get_sum Tally.owned rfl (fun _ _ => rfl) (fun x => ?_) past
  cases x with
  | begun i s slot =>
      cases hfalls : slot.fallsTo n i <;> simp only [Deed.earned, Deed.owns, hfalls] <;> rfl
  | recorded i s report => exact Tally.owned_countOutcome 0 report.outcome
  | _ => rfl

theorem counter_earned (past : Trail) (kind : OutcomeKind) :
    (past.earned n).counter kind = UInt64.ofNat (past.counted kind) := by
  refine Tally.get_sum (Tally.counter · kind) (by cases kind <;> rfl)
    (fun _ _ => by cases kind <;> rfl) (fun x => ?_) past
  cases x with
  | begun i s slot =>
      cases hfalls : slot.fallsTo n i <;> cases kind <;> simp only [Deed.earned, hfalls] <;> rfl
  | recorded i s report =>
      have hcount := Tally.counter_countOutcome 0 report.outcome kind
      simp only [Deed.counts, decide_eq_true_eq]
      cases kind <;> exact hcount
  | _ => cases kind <;> rfl

end Trail

/-! ## Counters -/

/-- A step of a plan counts nothing but rollbacks. -/
theorem Plan.apart_step (plan : Plan) (e : Environment σ) (t : Tally) (s : Scene σ) :
    Tally.apart (plan.step e t s).2.1 = Tally.apart t := by
  cases plan <;> rfl

namespace Worker

variable {w : Worker} {closed : Bool} {ring : Ring} {scene : Scene σ} {n i : Nat}

theorem apart_follow (n i : Nat) (w : Worker) (s : Nat) (d : Delivery) (scene : Scene σ)
    (progress : Plan.Progress) :
    Tally.apart (w.follow s d scene progress).1.handler.tally =
      Tally.apart w.handler.tally +
        Trail.earned n ((w.follow s d scene progress).1.stage.recording i) := by
  cases progress with
  | going plan => exact (add_zero _).symm
  | ended ending =>
      cases ending with
      | waiting c mark rest => exact (add_zero _).symm
      | finished outcome =>
          simp only [follow, Handler.report, Stage.recording, Trail.earned_cons, Trail.earned_nil,
            add_zero, Deed.earned, Tally.apart_countOutcome]
      | crashed crash =>
          simp only [follow, Handler.report, Stage.recording, Trail.earned_cons, Trail.earned_nil,
            add_zero, Deed.earned, Tally.apart_countOutcome]

theorem seen_follow (w : Worker) (s : Nat) (d : Delivery) (scene : Scene σ)
    (progress : Plan.Progress) :
    (w.follow s d scene progress).1.handler.tally.seen = w.handler.tally.seen := by
  rcases progress with (outcome | crash | ⟨c, mark, rest⟩) | plan <;>
    simp [follow, Handler.report]

/-- A step of a handler: it begins a delivery, goes on with one that it dispatches, or does
something minor and leaves its counters alone. -/
inductive Stride (e : Environment σ) (scene : Scene σ) (w : Worker) : Worker → Prop where
  | minor {w'} (hb : w'.stage.busy? = none) (hh : w'.handler = w.handler)
      (hd : ∀ i, ∀ x ∈ w.stage.deeds i w'.stage, x.isMinor) : Stride e scene w w'
  | begin (s slot) (hs : w.stage = .released s slot) : Stride e scene w (w.begin s slot scene).1
  | work (s d plan) (hs : w.stage = .dispatching s d plan) :
      Stride e scene w
        ((w.withTally (plan.step e w.handler.tally scene).2.1).follow s d
          (plan.step e w.handler.tally scene).2.2 (plan.step e w.handler.tally scene).1).1
  | resume (s d c mark rest result scene') (hs : w.stage = .waiting s d c mark rest) :
      Stride e scene w (w.follow s d scene' (.ofResult rest result)).1

theorem stride_of_advance {next : Advance σ} (h : w.advance e closed ring scene = some next) :
    w.Stride e scene next.worker := by
  cases hs : w.stage with
  | idle =>
      simp only [advance, hs] at h
      split at h
      · cases h
        exact .minor rfl rfl (by simp [hs, Stage.deeds, Deed.isMinor])
      · split at h
        · cases h
          exact .minor rfl rfl (by simp [hs, Stage.deeds, stop])
        · contradiction
  | received s =>
      rw [advance_received hs, Option.some.injEq] at h
      subst h
      exact .minor rfl rfl (by simp [hs, Stage.deeds, Deed.isMinor])
  | claimed s slot =>
      simp only [advance, hs, Option.some.injEq] at h
      subst h
      exact .minor rfl rfl (by simp [hs, Stage.deeds, Deed.isMinor])
  | released s slot =>
      rw [advance_released hs, Option.some.injEq] at h
      subst h
      exact .begin s slot hs
  | dispatching s d plan =>
      rw [advance_dispatching hs, Option.some.injEq] at h
      subst h
      exact .work s d plan hs
  | waiting s d c mark rest =>
      rw [advance_waiting hs, Option.map_eq_some_iff] at h
      obtain ⟨⟨result, scene'⟩, -, rfl⟩ := h
      exact .resume s d c mark rest result scene' hs
  | recorded s d report =>
      simp only [advance, hs, Option.some.injEq] at h
      subst h
      exact .minor rfl rfl (by simp [hs, Stage.deeds, Deed.isMinor])
  | ended =>
      simp only [advance, hs] at h
      contradiction

namespace Stride

variable {w' : Worker} {queue : String}

/-- What a handler counts in a step is on the trail, but for rollbacks. -/
theorem apart_eq (h : w.Stride e scene w') (hrole : w.handler.role = (i, n, queue)) :
    Tally.apart w'.handler.tally =
      Tally.apart w.handler.tally + Trail.earned n (w.stage.deeds i w'.stage) := by
  cases h with
  | minor hb hh hd => rw [hh, Trail.earned_of_minor n (hd i), add_zero]
  | begin s slot hs =>
      rw [hs]
      cases hc : w.handler.claim? slot with
      | none =>
          simp only [begin_of_none s scene hc, Stage.deeds, Trail.earned_cons, Trail.earned_nil,
            Deed.earned, Handler.not_fallsTo hrole hc, Handler.see, add_zero]
          exact w.handler.tally.apart_countSeen
      | some d =>
          have hfalls := (Handler.claim?_eq_some hrole hc).2
          simp only [begin_of_some s scene hc, Stage.deeds, Trail.earned_cons, Trail.earned_nil,
            Deed.earned, hfalls, if_true, Handler.see, Handler.take, add_zero,
            Tally.apart_countOwned, Tally.apart_countSeen, add_assoc]
  | work s d plan hs =>
      rw [hs, apart_follow n i, Stage.deeds_dispatching, Trail.earned_append, Trail.earned_calls,
        zero_add]
      exact congrArg (· + _) (plan.apart_step e w.handler.tally scene)
  | resume s d c mark rest result scene' hs =>
      rw [hs]
      exact apart_follow n i w s d scene' _

/-- A handler counts an event as seen when it begins it. -/
theorem seen_eq (h : w.Stride e scene w') (i : Nat) :
    w'.handler.tally.seen = w.handler.tally.seen +
      UInt64.ofNat (Trail.reached (w.stage.deeds i w'.stage) i .begun) := by
  cases h with
  | minor hb hh hd =>
      rw [hh, Trail.reached_begun_of_minor (hd i)]
      exact (add_zero _).symm
  | begin s slot hs =>
      rw [hs]
      cases hc : w.handler.claim? slot with
      | none => simp [begin_of_none s scene hc, Stage.deeds, Deed.passes, Handler.see,
          Tally.countSeen]
      | some d => simp [begin_of_some s scene hc, Stage.deeds, Deed.passes, Handler.see,
          Handler.take, Tally.countSeen, Tally.countOwned]
  | work s d plan hs =>
      rw [hs, seen_follow, Stage.deeds_dispatching]
      simp only [Trail.reached_append, Trail.reached_calls, Trail.reached_recording]
      cases plan <;> exact (add_zero _).symm
  | resume s d c mark rest result scene' hs => simp [hs, seen_follow, Stage.deeds]

end Stride

end Worker

/-! ## Turns and pauses -/

/-- From one pool to another no handler goes on: each one stays as it is, but for its inbox, or is
stopped. -/
structure Pool.Pauses (p q : Pool) (deeds : Trail) : Prop where
  size : q.workers.length = p.workers.length
  workers : ∀ i (w : Worker), q.workers[i]? = some w → ∃ v : Worker, p.workers[i]? = some v ∧
    w.handler = v.handler ∧ (w.stage = v.stage ∨ w.stage = .ended ∧ .stopped i ∈ deeds)
  deeds : ∀ x ∈ deeds, x.moment? = none

/-- What an action is to the handlers: a step of one of them, or a pause. -/
inductive Floor.TurnOrPause (e : Environment σ) (f : Floor σ) : Trail → Floor σ → Prop where
  | turn (i w next) (hw : f.pool.workers[i]? = some w)
      (hnext : w.advance e f.pool.closed f.pool.ring f.scene = some next) :
      TurnOrPause e f (w.stage.deeds i next.worker.stage)
        ⟨{ f.pool with
            workers := f.pool.workers.set i next.worker
            ring := next.ring
            reports := if f.pool.reporting then f.pool.reports ++ next.report.toList
              else f.pool.reports },
          next.scene⟩
  | pause {deeds g} (h : f.pool.Pauses g.pool deeds) : TurnOrPause e f deeds g

namespace Pool.Pauses

variable {p q : Pool} {deeds : Trail}

theorem of_workers_eq (hw : q.workers = p.workers) (hd : ∀ x ∈ deeds, x.moment? = none) :
    p.Pauses q deeds :=
  ⟨by rw [hw], fun _ w hi => ⟨w, hw ▸ hi, rfl, .inl rfl⟩, hd⟩

theorem of_workers_set {i : Nat} {v w : Worker} (hv : p.workers[i]? = some v)
    (hw : q.workers = p.workers.set i w) (hhandler : w.handler = v.handler)
    (hstage : w.stage = v.stage ∨ w.stage = .ended ∧ .stopped i ∈ deeds)
    (hd : ∀ x ∈ deeds, x.moment? = none) : p.Pauses q deeds where
  size := by rw [hw, List.length_set]
  workers := by
    intro j u hu
    rw [hw] at hu
    rcases eq_or_of_getElem?_set hu with ⟨rfl, rfl⟩ | ⟨-, hu⟩
    · exact ⟨v, hv, hhandler, hstage⟩
    · exact ⟨u, hu, rfl, .inl rfl⟩
  deeds := hd

theorem map_eq {α : Type} (h : p.Pauses q deeds) (f : Worker → α)
    (hf : ∀ (i : Nat) (v w : Worker), w.handler = v.handler →
      (w.stage = v.stage ∨ w.stage = .ended ∧ .stopped i ∈ deeds) → f w = f v) :
    q.workers.map f = p.workers.map f := by
  refine List.ext_getElem? fun i => ?_
  simp only [List.getElem?_map]
  cases hw : q.workers[i]? with
  | none =>
      rw [List.getElem?_eq_none_iff, h.size] at hw
      rw [List.getElem?_eq_none_iff.mpr hw]
  | some w =>
      obtain ⟨v, hv, hhandler, hstage⟩ := h.workers i w hw
      rw [hv, Option.map_some, Option.map_some, hf i v w hhandler hstage]

theorem tallies_eq (h : p.Pauses q deeds) : q.tallies = p.tallies :=
  h.map_eq (·.handler.tally) fun _ _ _ hhandler _ => by rw [hhandler]

theorem stages_eq (h : p.Pauses q deeds) (hstop : ∀ i, .stopped i ∉ deeds) :
    q.workers.map Worker.stage = p.workers.map Worker.stage :=
  h.map_eq Worker.stage fun i _ _ _ hstage => hstage.resolve_right fun hx => hstop i hx.2

theorem minor (h : p.Pauses q deeds) : ∀ x ∈ deeds, x.isMinor :=
  fun x hx => Deed.isMinor_of_moment? (h.deeds x hx)

end Pool.Pauses

theorem Floor.turn_or_pause {f g : Floor σ} {a : Action} (hact : f.act e a = some g) :
    f.TurnOrPause e (f.deeds a g) g := by
  cases a with
  | publish slot =>
      cases hact
      obtain ⟨waiting, results, heq, -⟩ := f.pool.publish_eq slot
      refine .pause (.of_workers_eq (by rw [heq]) ?_)
      simp [Floor.deeds, Deed.moment?]
  | acquire ticket =>
      obtain ⟨q, hq, rfl⟩ := Option.map_eq_some_iff.mp hact
      refine .pause (.of_workers_eq ?_ (by simp [Floor.deeds]))
      unfold Pool.acquire at hq
      split at hq
      · cases hq
        rfl
      · contradiction
  | proceed =>
      obtain ⟨⟨q, scene⟩, hq, rfl⟩ := Option.map_eq_some_iff.mp hact
      have hdeeds : ∀ x ∈ f.announcements ⟨q, scene⟩, x.moment? = none := by
        unfold announcements
        split
        · simp [Deed.moment?]
        · simp [Deed.moment?]
        · split <;> simp [Deed.moment?]
        · simp
      obtain ⟨-, heq | ⟨told, w, s, hw, heq⟩⟩ := Pool.proceed_eq_some hq
      · exact .pause (.of_workers_eq heq hdeeds)
      · exact .pause (.of_workers_set hw heq rfl (.inl rfl) hdeeds)
  | cancel ticket =>
      obtain ⟨q, hq, rfl⟩ := Option.map_eq_some_iff.mp hact
      refine .pause (.of_workers_eq ?_ (by simp [Floor.deeds]))
      obtain ⟨slot, -, ⟨-, rfl⟩ | ⟨-, rfl⟩⟩ := Pool.cancel_eq_some hq <;> rfl
  | advance i =>
      obtain ⟨⟨q, scene⟩, hq, rfl⟩ := Option.map_eq_some_iff.mp hact
      obtain ⟨w, next, hw, hnext, rfl, rfl⟩ := Pool.advance_eq_some hq
      have hw' : (f.pool.workers.set i next.worker)[i]? = some next.worker :=
        getElem?_set_self_of_some hw
      simp only [Floor.deeds, hw, hw']
      exact .turn i w next hw hnext
  | stop i =>
      obtain ⟨q, hq, rfl⟩ := Option.map_eq_some_iff.mp hact
      obtain ⟨w, hw, rfl⟩ := Option.map_eq_some_iff.mp hq
      refine .pause (.of_workers_set hw rfl rfl (.inr ⟨rfl, ?_⟩) ?_)
      · simp [Floor.deeds]
      · simp [Floor.deeds, Deed.moment?]
  | close =>
      obtain ⟨-, rfl⟩ := Floor.close_of_act hact
      exact .pause (.of_workers_eq rfl (by simp [Floor.deeds]))
  | join =>
      obtain rfl := Floor.join_of_act hact
      exact .pause (.of_workers_eq rfl (by simp [Floor.deeds]))

/-! ## Counters and the trail -/

namespace Pool

theorem tally_eq_sum (p : Pool) : p.tally = p.tallies.sum := Tally.total_eq_sum p.tallies

/-- The counters say what is on the trail. -/
structure Accounted (n : Nat) (p : Pool) (past : Trail) : Prop where
  tally : Tally.apart p.tally = past.earned n
  seen : ∀ i t, p.tallies[i]? = some t → t.seen = UInt64.ofNat (past.reached i .begun)

namespace Accounted

variable {n : Nat} {p q : Pool} {past deeds : Trail}

theorem new (config : Config) (reporting : Bool) : Accounted n (.new config reporting) [] := by
  have hzero : ∀ t ∈ (Pool.new config reporting).tallies, t = 0 := by
    simp [Pool.new, Pool.tallies, Handler.new, Tally.zero_def]
  constructor
  · rw [tally_eq_sum, List.sum_eq_zero hzero]
    rfl
  · intro i t ht
    rw [hzero t (List.mem_of_getElem? ht)]
    rfl

/-- What nobody begins or counts leaves the counters alone. -/
theorem keep (h : Accounted n p past) (ht : q.tallies = p.tallies)
    (hd : ∀ x ∈ deeds, x.isMinor) : Accounted n q (past ++ deeds) where
  tally := by
    rw [Pool.tally, ht, Trail.earned_append, Trail.earned_of_minor n hd, add_zero]
    exact h.tally
  seen := by
    intro i t hi
    rw [Trail.reached_append, Trail.reached_begun_of_minor hd, add_zero]
    exact h.seen i t (ht ▸ hi)

/-- A handler goes on. -/
theorem change (h : Accounted n p past) {i : Nat} {t u : Tally} (ht : p.tallies[i]? = some t)
    (hq : q.tallies = p.tallies.set i u) (hu : Tally.apart u = Tally.apart t + Trail.earned n deeds)
    (hseen : u.seen = t.seen + UInt64.ofNat (Trail.reached deeds i .begun))
    (hother : ∀ j, j ≠ i → Trail.reached deeds j .begun = 0) : Accounted n q (past ++ deeds) where
  tally := by
    obtain ⟨hi, rfl⟩ := List.getElem?_eq_some_iff.mp ht
    -- tallies form a group, so one of them can be taken out of the sum
    have hsum : q.tally = p.tally + (-p.tallies[i] + u) := by
      rw [tally_eq_sum, tally_eq_sum, hq, List.sum_set', dif_pos hi]
    rw [hsum, map_add, map_add, map_neg, hu, neg_add_cancel_left, h.tally, Trail.earned_append]
  seen := by
    intro j v hv
    rw [hq, List.getElem?_set] at hv
    rw [Trail.reached_append]
    split at hv
    · next hij =>
        subst hij
        obtain rfl : u = v := Option.some.inj (Option.ite_none_right_eq_some.mp hv).2
        rw [hseen, h.seen i t ht, UInt64.ofNat_add]
    · next hij =>
        rw [hother j (Ne.symm hij), add_zero]
        exact h.seen j v hv

/-- Whatever is done, the counters say what is on the trail. -/
theorem act {f g : Floor σ} {a : Action} (h : Accounted n f.pool past)
    (hs : f.pool.Staffed n past) (hact : f.act e a = some g) :
    Accounted n g.pool (past ++ f.deeds a g) := by
  have hstep := Floor.turn_or_pause hact
  generalize f.deeds a g = deeds at hstep ⊢
  cases hstep with
  | turn i w next hw hnext =>
      have hturn := Worker.turn_of_advance i hnext
      have hstride := Worker.stride_of_advance hnext
      refine h.change (i := i) (t := w.handler.tally) ?_ List.map_set
        (hstride.apart_eq (hs.role i w hw)) (hstride.seen_eq i)
        (fun j hj => hturn.reached_of_ne hj .begun)
      simp [tallies, hw]
  | pause hpause => exact h.keep hpause.tallies_eq hpause.minor

end Accounted

end Pool

/-! ## Deliveries begun and reported -/

namespace Stage

/-- Whether a handler is busy with a delivery. -/
def isBusy (stage : Stage) : Bool := stage.busy?.isSome

/-- Whether a handler has counted an outcome of this kind and has still to report it. -/
def hasCounted (kind : OutcomeKind) : Stage → Bool
  | .recorded _ _ report => report.outcome.kind = kind
  | _ => false

end Stage

namespace Trail

/-- How many outcomes of a kind have been reported. -/
def reportedAs (kind : OutcomeKind) (past : Trail) : Nat :=
  past.reports.countP (·.2.outcome.kind = kind)

end Trail

namespace Worker.Turn

variable {i n : Nat} {closed : Bool} {w w' : Worker} {ring ring' : Ring} {deeds : List Deed}
  {report : Option Report} {queue : String}

/-- A handler becomes busy with a delivery that it begins, until it reports it. -/
theorem owned_eq (h : w.Turn i closed ring deeds w' ring' report)
    (hrole : w.handler.role = (i, n, queue)) :
    Trail.owned n deeds + w.stage.isBusy.toNat =
      (Trail.reports deeds).length + w'.stage.isBusy.toNat := by
  cases h with
  | receive s rest hs hi => simp [hs]; rfl
  | leave hs hi hc => simp [hs, stop]; rfl
  | claim s hs => simp [hs]; rfl
  | release s slot hs => simp [hs]; rfl
  | pass s slot handler hs hc hh =>
      have hfalls := Handler.not_fallsTo hrole hc
      simp [hs, Trail.owned, Deed.owns, hfalls, Trail.reports, List.filterMap_cons, Deed.report?,
        Stage.isBusy, Stage.busy?]
  | begin s slot d handler plan hs hc hh hp =>
      have hfalls := (Handler.claim?_eq_some hrole hc).2
      simp [hs, Trail.owned, Deed.owns, hfalls, Trail.reports, Deed.report?, Stage.isBusy,
        Stage.busy?]
  | work s d handler stage calls hs hn hb hh hc hr hk =>
      have hnone : Trail.owned n (calls.map (.called i s d) ++ stage.recording i) = 0 := by
        rw [Trail.owned, List.countP_eq_zero]
        intro x hx
        rcases List.mem_append.mp hx with hx | hx
        · obtain ⟨c, -, rfl⟩ := List.mem_map.mp hx
          simp [Deed.owns]
        · obtain ⟨report, rfl, -⟩ := Stage.eq_of_mem_recording hb hx
          simp [Deed.owns]
      simp [hnone, Stage.isBusy, hs, hb]
  | report s d report hs => simp [hs]; rfl

/-- A handler has counted the outcome of a delivery until it reports it. -/
theorem counted_eq (h : w.Turn i closed ring deeds w' ring' report) (kind : OutcomeKind) :
    Trail.counted kind deeds + (w.stage.hasCounted kind).toNat =
      Trail.reportedAs kind deeds + (w'.stage.hasCounted kind).toNat := by
  cases h with
  | work s d handler stage calls hs hn hb hh hc hr hk =>
      have hbefore : w.stage.hasCounted kind = false := by
        cases hst : w.stage with
        | recorded s' d' report' => simp [hst, Stage.limit] at hn
        | _ => rfl
      have hcalls : Trail.counted kind (calls.map (.called i s d)) = 0 := by
        simp [Trail.counted, List.countP_eq_zero, Deed.counts]
      have hrecording : Trail.counted kind (stage.recording i) =
          (stage.hasCounted kind).toNat := by
        cases stage with
        | recorded s' d' report' =>
            by_cases hkind : report'.outcome.kind = kind <;>
              simp [Stage.recording, Stage.hasCounted, Trail.counted, Deed.counts, hkind]
        | _ => rfl
      simp only [Trail.counted] at hcalls hrecording ⊢
      simp [List.countP_append, hcalls, hrecording, hbefore, Trail.reportedAs]
  | report s d report hs =>
      by_cases hkind : report.outcome.kind = kind <;>
        simp [hs, Stage.hasCounted, Trail.counted, Deed.counts, Trail.reportedAs, Trail.reports,
          List.filterMap_cons, Deed.report?, hkind]
  | receive s rest hs hi => simp [hs]; rfl
  | leave hs hi hc => simp [hs, stop]; rfl
  | claim s hs => simp [hs]; rfl
  | release s slot hs => simp [hs]; rfl
  | pass s slot handler hs hc hh => simp [hs]; rfl
  | begin s slot d handler plan hs hc hh hp => simp [hs]; rfl

end Worker.Turn

theorem countP_set_add {ws : List Worker} {i : Nat} {w : Worker} (hw : ws[i]? = some w)
    (p : Worker → Bool) (w' : Worker) :
    (ws.set i w').countP p + (p w).toNat = ws.countP p + (p w').toNat := by
  obtain ⟨hi, rfl⟩ := List.getElem?_eq_some_iff.mp hw
  have hle : (p ws[i]).toNat ≤ ws.countP p := by
    cases hp : p ws[i] with
    | false => exact Nat.zero_le _
    | true => exact List.countP_pos_iff.mpr ⟨ws[i], List.getElem_mem hi, hp⟩
  have hif (b : Bool) : (if b = true then 1 else 0) = b.toNat := by cases b <;> rfl
  rw [List.countP_set hi, hif, hif]
  omega

namespace Pool

/-- What was begun has been reported, or is in hand. -/
structure Balanced (n : Nat) (p : Pool) (past : Trail) : Prop where
  owned : past.owned n = past.reports.length + p.workers.countP (·.stage.isBusy)
  counted : ∀ kind,
    past.counted kind = past.reportedAs kind + p.workers.countP (·.stage.hasCounted kind)

namespace Balanced

variable {n : Nat} {p q : Pool} {past deeds : Trail}

theorem new (config : Config) (reporting : Bool) : Balanced n (.new config reporting) [] := by
  have hidle : ∀ w ∈ (Pool.new config reporting).workers, w.stage = .idle := by
    simp [Pool.new]
  constructor
  · rw [List.countP_eq_zero.mpr fun w hw => by simp [hidle w hw, Stage.isBusy, Stage.busy?]]
    rfl
  · intro kind
    rw [List.countP_eq_zero.mpr fun w hw => by simp [hidle w hw, Stage.hasCounted]]
    rfl

/-- A handler goes on. -/
theorem turn (h : Balanced n p past) (hs : Staffed n p past) {i : Nat} {w w' : Worker}
    {ring : Ring} {report : Option Report} (reports : List Report) (hw : p.workers[i]? = some w)
    (ht : w.Turn i p.closed p.ring deeds w' ring report) :
    Balanced n { p with workers := p.workers.set i w', ring, reports } (past ++ deeds) where
  owned := by
    have hturn := ht.owned_eq (hs.role i w hw)
    have hset := countP_set_add hw (·.stage.isBusy) w'
    have hbefore := h.owned
    simp only [Trail.owned, List.countP_append, Trail.reports_append, List.length_append] at *
    omega
  counted kind := by
    have hturn := ht.counted_eq kind
    have hset := countP_set_add hw (·.stage.hasCounted kind) w'
    have hbefore := h.counted kind
    simp only [Trail.counted, Trail.reportedAs, List.countP_append, Trail.reports_append] at *
    omega

/-- While no handler goes on or is stopped, nothing changes. -/
theorem pause (h : Balanced n p past) (hp : p.Pauses q deeds) (hstop : ∀ i, .stopped i ∉ deeds) :
    Balanced n q (past ++ deeds) := by
  have hcount (f : Stage → Bool) :
      q.workers.countP (f ·.stage) = p.workers.countP (f ·.stage) := by
    have heq := congrArg (List.countP f) (hp.stages_eq hstop)
    rwa [List.countP_map, List.countP_map] at heq
  have hdeeds (f : Deed → Bool) (hf : ∀ x, x.moment? = none → f x = false) :
      deeds.countP f = 0 :=
    List.countP_eq_zero.mpr fun x hx => by simp [hf x (hp.deeds x hx)]
  have hreports : Trail.reports deeds = [] := by
    rw [Trail.reports, List.filterMap_eq_nil_iff]
    intro x hx
    have hmoment := hp.deeds x hx
    cases x <;> first | rfl | contradiction
  constructor
  · have hnone : deeds.countP (Deed.owns n) = 0 :=
      hdeeds _ fun x hx => by cases x <;> first | rfl | contradiction
    rw [Trail.owned, List.countP_append, hnone, Trail.reports_append, hreports, List.append_nil,
      hcount Stage.isBusy]
    exact h.owned
  · intro kind
    have hnone : deeds.countP (Deed.counts kind) = 0 :=
      hdeeds _ fun x hx => by cases x <;> first | rfl | contradiction
    rw [Trail.counted, List.countP_append, hnone, Trail.reportedAs, Trail.reports_append, hreports,
      List.append_nil, hcount (Stage.hasCounted kind)]
    exact h.counted kind

/-- While no handler is stopped, what was begun has been reported or is in hand. -/
theorem act {f g : Floor σ} {a : Action} (h : Balanced n f.pool past)
    (hs : f.pool.Staffed n past) (hact : f.act e a = some g)
    (hstop : ∀ i, .stopped i ∉ f.deeds a g) : Balanced n g.pool (past ++ f.deeds a g) := by
  have hstep := Floor.turn_or_pause hact
  generalize f.deeds a g = deeds at hstep hstop ⊢
  cases hstep with
  | turn i w next hw hnext => exact h.turn hs _ hw (Worker.turn_of_advance i hnext)
  | pause hpause => exact h.pause hpause hstop

end Balanced

end Pool

end ShardedDelivery
