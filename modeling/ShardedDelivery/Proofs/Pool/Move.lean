import ShardedDelivery.Proofs.Plan.Scope
import ShardedDelivery.Proofs.Pool.Run

/-! # The moves of a pool

What an action can do to the pool itself, whatever happens in the scene: one rule for each way of
going on, with everything that the rule requires and the deeds that it leaves on the trail. -/

namespace ShardedDelivery

/-- What a handler is for good. -/
def Handler.role (h : Handler) : Nat × Nat × String := (h.ordinal, h.count, h.queue)

/-- The sequence and the delivery that a handler is busy with. -/
def Stage.busy? : Stage → Option (Nat × Delivery)
  | .dispatching s d _ => some (s, d)
  | .waiting s d _ _ _ => some (s, d)
  | .recorded s d _ => some (s, d)
  | _ => none

/-- How many things a handler that is busy with a delivery has done or may be doing: to begin, to
call and to count the outcome. -/
def Stage.limit : Stage → Nat
  | .dispatching .. | .waiting .. => 2
  | .recorded .. => 3
  | _ => 0

/-- What remains to be done at a stage concerns only this delivery, with at most `k` sends. -/
def Stage.Serves (d : Delivery) (k : Nat) : Stage → Prop
  | .dispatching _ _ plan => plan.Serves d k
  | .waiting _ _ c _ rest => c = .send d ∧ ∀ reply, (rest reply).Serves d k
  | _ => True

theorem Stage.deeds_dispatching (i s : Nat) (d : Delivery) (plan : Plan) (after : Stage) :
    (Stage.dispatching s d plan).deeds i after =
      plan.calls.map (.called i s d) ++ after.recording i := by
  cases plan <;> rfl

theorem Worker.isGone_iff {w : Worker} : w.isGone ↔ w.stage = .ended := by
  unfold Worker.isGone
  cases w.stage <;> simp

/-! ## Turns of a handler -/

/-- A turn of the handler with ordinal `i`: the deeds, the handler and the ring afterwards, and a
report if one is sent. -/
inductive Worker.Turn (i : Nat) (closed : Bool) (w : Worker) (ring : Ring) :
    List Deed → Worker → Ring → Option Report → Prop where
  | receive (s rest) (hs : w.stage = .idle) (hi : w.inbox = s :: rest) :
      Turn i closed w ring [.received i s] { w with inbox := rest, stage := .received s } ring none
  | leave (hs : w.stage = .idle) (hi : w.inbox = []) (hc : closed) :
      Turn i closed w ring [] w.stop ring none
  | claim (s) (hs : w.stage = .received s) :
      Turn i closed w ring [.claimed i s (ring.claim s w.handler.owns).1]
        { w with stage := .claimed s (ring.claim s w.handler.owns).1 }
        (ring.claim s w.handler.owns).2 none
  | release (s slot) (hs : w.stage = .claimed s slot) :
      Turn i closed w ring [.released i s] { w with stage := .released s slot } (ring.release s)
        none
  | pass (s slot handler) (hs : w.stage = .released s slot) (hc : w.handler.claim? slot = none)
      (hh : handler.role = w.handler.role) :
      Turn i closed w ring [.begun i s slot, .done i s] { w with handler, stage := .idle } ring none
  | begin (s slot d handler plan) (hs : w.stage = .released s slot)
      (hc : w.handler.claim? slot = some d) (hh : handler.role = w.handler.role)
      (hp : plan.Serves d 1) :
      Turn i closed w ring [.begun i s slot]
        { w with handler, stage := .dispatching s d plan } ring none
  | work (s d handler stage) (calls : List Call) (hs : w.stage.busy? = some (s, d))
      (hn : w.stage.limit = 2) (hb : stage.busy? = some (s, d))
      (hh : handler.role = w.handler.role) (hc : calls.length ≤ 1)
      (hr : ∀ t d' report, stage = .recorded t d' report →
        report.channel = d.subscription.channel ∧ report.message = d.message.id)
      (hk : ∀ k, w.stage.Serves d k → ∃ k', k' + (calls.filterMap Call.send?).length ≤ k ∧
        (∀ d' ∈ calls.filterMap Call.send?, d' = d) ∧ stage.Serves d k') :
      Turn i closed w ring (calls.map (.called i s d) ++ stage.recording i)
        { w with handler, stage } ring none
  | report (s d report) (hs : w.stage = .recorded s d report) :
      Turn i closed w ring [.reported i s report, .done i s] { w with stage := .idle } ring
        (some report)

namespace Worker

variable {σ : Type}

/-- A piece of a plan leaves the handler busy with the same delivery. -/
theorem follow_spec (w : Worker) (s : Nat) (d : Delivery) (scene : Scene σ)
    (progress : Plan.Progress) :
    ∃ handler stage, (w.follow s d scene progress).1 = { w with handler, stage } ∧
      handler.role = w.handler.role ∧ stage.busy? = some (s, d) ∧
      (∀ t d' report, stage = .recorded t d' report →
        report.channel = d.subscription.channel ∧ report.message = d.message.id) ∧
      ∀ k, progress.Serves d k → stage.Serves d k := by
  cases progress with
  | going plan => exact ⟨w.handler, _, rfl, rfl, rfl, by simp, fun _ h => h⟩
  | ended ending =>
      cases ending with
      | waiting c mark rest => exact ⟨w.handler, _, rfl, rfl, rfl, by simp, fun _ h => h⟩
      | finished outcome =>
          refine ⟨_, _, rfl, rfl, rfl, ?_, fun _ _ => trivial⟩
          intro t d' report h
          cases h
          exact ⟨rfl, rfl⟩
      | crashed crash =>
          refine ⟨_, _, rfl, rfl, rfl, ?_, fun _ _ => trivial⟩
          intro t d' report h
          cases h
          exact ⟨rfl, rfl⟩

theorem begin_of_none {w : Worker} {slot : Slot} (s : Nat) (scene : Scene σ)
    (hc : w.handler.claim? slot = none) :
    (w.begin s slot scene).1 =
      { w with handler := (w.handler.see s w.inbox.isEmpty scene).1, stage := .idle } := by
  have hc' : (w.handler.see s w.inbox.isEmpty scene).1.claim? slot = none := hc
  simp only [begin, hc']

theorem begin_of_some {w : Worker} {slot : Slot} {d : Delivery} (s : Nat) (scene : Scene σ)
    (hc : w.handler.claim? slot = some d) :
    (w.begin s slot scene).1 =
      { w with
        handler := (w.handler.see s w.inbox.isEmpty scene).1.take
        stage := .dispatching s d (Plan.dispatch w.handler.queue d slot.failed) } := by
  have hc' : (w.handler.see s w.inbox.isEmpty scene).1.claim? slot = some d := hc
  simp only [begin, hc']
  rfl

/-- The handler with another tally. -/
def withTally (w : Worker) (tally : Tally) : Worker :=
  { w with handler := { w.handler with tally } }

section Steps

variable {e : Environment σ} {closed : Bool} {ring : Ring} {scene : Scene σ} {w : Worker}

theorem advance_received {s : Nat} (hs : w.stage = .received s) :
    w.advance e closed ring scene =
      some ⟨{ w with stage := .claimed s (ring.claim s w.handler.owns).1 },
        (ring.claim s w.handler.owns).2, scene, none⟩ := by
  simp only [advance, hs]

theorem advance_released {s : Nat} {slot : Slot} (hs : w.stage = .released s slot) :
    w.advance e closed ring scene =
      some ⟨(w.begin s slot scene).1, ring, (w.begin s slot scene).2, none⟩ := by
  simp only [advance, hs]

theorem advance_dispatching {s : Nat} {d : Delivery} {plan : Plan}
    (hs : w.stage = .dispatching s d plan) :
    w.advance e closed ring scene =
      match plan.step e w.handler.tally scene with
      | (progress, tally, scene) =>
          some ⟨((w.withTally tally).follow s d scene progress).1, ring,
            ((w.withTally tally).follow s d scene progress).2, none⟩ := by
  simp only [advance, hs, withTally]

theorem advance_waiting {s : Nat} {d : Delivery} {c : Call} {mark : Nat} {rest : c.Reply → Plan}
    (hs : w.stage = .waiting s d c mark rest) :
    w.advance e closed ring scene =
      (scene.callLate e c mark).map fun (result, scene) =>
        ⟨(w.follow s d scene (.ofResult rest result)).1, ring,
          (w.follow s d scene (.ofResult rest result)).2, none⟩ := by
  simp only [advance, hs]

end Steps

/-- Whatever step a handler takes is one of its turns. -/
theorem turn_of_advance {e : Environment σ} {closed : Bool} {ring : Ring} {scene : Scene σ}
    {w : Worker} {next : Advance σ} (i : Nat) (h : w.advance e closed ring scene = some next) :
    w.Turn i closed ring (w.stage.deeds i next.worker.stage) next.worker next.ring next.report := by
  cases hs : w.stage with
  | idle =>
      simp only [advance, hs] at h
      cases hi : w.inbox with
      | nil =>
          simp only [hi] at h
          split at h
          · rename_i hc
            cases h
            exact .leave hs hi hc
          · contradiction
      | cons s rest =>
          simp only [hi, Option.some.injEq] at h
          subst h
          exact .receive s rest hs hi
  | received s =>
      rw [advance_received hs, Option.some.injEq] at h
      subst h
      exact .claim s hs
  | claimed s slot =>
      simp only [advance, hs, Option.some.injEq] at h
      subst h
      exact .release s slot hs
  | released s slot =>
      rw [advance_released hs, Option.some.injEq] at h
      subst h
      cases hc : w.handler.claim? slot with
      | none =>
          simp only [begin_of_none s scene hc]
          exact .pass s slot _ hs hc rfl
      | some d =>
          simp only [begin_of_some s scene hc]
          exact .begin s slot d _ _ hs hc rfl (Plan.serves_dispatch _ d slot.failed)
  | dispatching s d plan =>
      rw [advance_dispatching hs, Option.some.injEq] at h
      subst h
      obtain ⟨handler, stage, heq, hrole, hbusy, hreport, hserves⟩ := follow_spec
        (w.withTally (plan.step e w.handler.tally scene).2.1) s d
        (plan.step e w.handler.tally scene).2.2 (plan.step e w.handler.tally scene).1
      simp only [heq, Stage.deeds_dispatching]
      refine .work s d handler stage plan.calls (by rw [hs]; rfl) (by rw [hs]; rfl) hbusy hrole
        plan.length_calls_le hreport ?_
      intro k hk
      rw [hs] at hk
      obtain ⟨k', hle, hsends, hstep⟩ := Plan.Serves.step hk e w.handler.tally scene
      exact ⟨k', hle, hsends, hserves k' hstep⟩
  | waiting s d c mark rest =>
      rw [advance_waiting hs, Option.map_eq_some_iff] at h
      obtain ⟨⟨result, scene'⟩, -, rfl⟩ := h
      obtain ⟨handler, stage, heq, hrole, hbusy, hreport, hserves⟩ :=
        follow_spec w s d scene' (.ofResult rest result)
      simp only [heq]
      refine .work s d handler stage [] (by rw [hs]; rfl) (by rw [hs]; rfl) hbusy hrole
        (Nat.zero_le 1) hreport ?_
      intro k hk
      rw [hs] at hk
      exact ⟨k, by simp, by simp, hserves k (Plan.Progress.serves_ofResult hk.2 result)⟩
  | recorded s d report =>
      simp only [advance, hs, Option.some.injEq] at h
      subst h
      exact .report s d report hs
  | ended =>
      simp only [advance, hs] at h
      contradiction

end Worker

/-! ## Moves of a pool -/

namespace Pool

/-- The sequence that is being announced, and the handler that is next to hear of it. -/
def announcement (p : Pool) : Option (Nat × Nat) :=
  match p.holder with
  | some ⟨_, .announcing s told⟩ => some (s, told)
  | _ => none

/-- A way for a pool to go on: the deeds, and the pool afterwards. -/
inductive Move (p : Pool) : List Deed → Pool → Prop where
  | come (slot) : Move p [.came p.tickets slot] (p.publish slot)
  | acquire (ticket slot) (hh : p.holder = none) (hw : (ticket, slot) ∈ p.waiting) :
      Move p [] { p with
        holder := some ⟨ticket, .writing slot⟩, waiting := p.waiting.filter (·.1 ≠ ticket) }
  | write (ticket slot ring) (hh : p.holder = some ⟨ticket, .writing slot⟩)
      (hr : p.ring.write? p.next slot = some ring) :
      Move p [.wrote ticket p.next slot]
        { p with ring, next := p.next + 1, holder := some ⟨ticket, .announcing p.next 0⟩ }
  | tell (ticket s told w) (hh : p.holder = some ⟨ticket, .announcing s told⟩)
      (hw : p.workers[told]? = some w) (hg : w.stage ≠ .ended)
      (hroom : w.inbox.length < p.ring.capacity) :
      Move p [.told told s]
        { p with
          workers := p.workers.set told (w.hear s)
          holder := some ⟨ticket, .announcing s (told + 1)⟩ }
  | giveUp (ticket s told w) (hh : p.holder = some ⟨ticket, .announcing s told⟩)
      (hw : p.workers[told]? = some w) (hg : w.stage = .ended) :
      Move p [.gaveUp told s]
        ({ p with
          ring := p.ring.abandon s (UInt64.ofNat (p.workers.length - told))
          running := false }.finish ticket (.error .shutdown))
  | finish (ticket s told) (hh : p.holder = some ⟨ticket, .announcing s told⟩)
      (ht : p.workers.length ≤ told) : Move p [] (p.finish ticket (.ok s))
  | withdraw (ticket slot) (hh : p.holder = some ⟨ticket, .writing slot⟩) :
      Move p [] { p with holder := none }
  | withdrawWaiting (ticket) : Move p [] { p with waiting := p.waiting.filter (·.1 ≠ ticket) }
  | turn (i w deeds w' ring report reports) (hw : p.workers[i]? = some w)
      (ht : w.Turn i p.closed p.ring deeds w' ring report)
      (hr : reports = if p.reporting then p.reports ++ report.toList else p.reports) :
      Move p deeds { p with workers := p.workers.set i w', ring, reports }
  | stop (i w) (hw : p.workers[i]? = some w) :
      Move p [.stopped i] { p with workers := p.workers.set i w.stop }
  | close (hp : p.pending = []) : Move p [] { p with running := false, closed := true }
  | rest : Move p [] p

variable {σ : Type}

theorem move_of_acquire {p q : Pool} {ticket : Nat} (h : p.acquire ticket = some q) :
    Move p [] q := by
  unfold acquire at h
  split at h
  · rename_i t slot hh hf
    cases h
    have hmem : (t, slot) ∈ p.waiting := List.mem_of_find?_eq_some hf
    have ht : t = ticket := by simpa using List.find?_some hf
    subst ht
    exact .acquire t slot hh hmem
  · contradiction

theorem move_of_cancel {p q : Pool} {ticket : Nat} (h : p.cancel ticket = some q) :
    Move p [] q := by
  have hwithdraw : cancel.withdraw p ticket = some q → Move p [] q := by
    intro hq
    unfold cancel.withdraw at hq
    split at hq
    · cases hq
      exact .withdrawWaiting ticket
    · contradiction
  unfold cancel at h
  split at h
  · rename_i holder slot hh
    split at h
    · cases h
      exact .withdraw holder slot hh
    · exact hwithdraw h
  · exact hwithdraw h

theorem move_of_proceed {p : Pool} {scene scene' : Scene σ} {q : Pool}
    (h : p.proceed scene = some (q, scene')) :
    Move p (Floor.announcements ⟨p, scene⟩ ⟨q, scene'⟩) q := by
  unfold proceed at h
  split at h
  · contradiction
  · rename_i ticket slot hh
    obtain ⟨q', hq, heq⟩ := Option.map_eq_some_iff.mp h
    cases heq
    obtain ⟨ring, hr, rfl⟩ := Option.map_eq_some_iff.mp hq
    simpa only [Floor.announcements, hh] using Move.write ticket slot ring hh hr
  · rename_i ticket s told hh
    unfold announce at h
    split at h
    · rename_i hw
      cases h
      have ht : p.workers.length ≤ told := List.getElem?_eq_none_iff.mp hw
      simpa only [Floor.announcements, hh, Pool.finish, Nat.not_lt.mpr ht, if_false] using
        Move.finish ticket s told hh ht
    · rename_i w hw
      obtain ⟨ht, -⟩ := List.getElem?_eq_some_iff.mp hw
      split at h
      · rename_i hg
        cases h
        simpa only [Floor.announcements, hh, Pool.finish, ht, if_true] using
          Move.giveUp ticket s told w hh hw (Worker.isGone_iff.mp hg)
      · rename_i hg
        split at h
        · rename_i hroom
          cases h
          simpa only [Floor.announcements, hh] using
            Move.tell ticket s told w hh hw (mt Worker.isGone_iff.mpr hg) hroom
        · contradiction

/-- The publisher with the lock adds to the log at most, and to one inbox at most. -/
theorem proceed_eq_some {p q : Pool} {scene scene' : Scene σ}
    (h : p.proceed scene = some (q, scene')) :
    (scene' = scene ∨ ∃ line, scene' = scene.log line) ∧
      (q.workers = p.workers ∨ ∃ told w s, p.workers[told]? = some w ∧
        q.workers = p.workers.set told (w.hear s)) := by
  unfold proceed at h
  split at h
  · contradiction
  · obtain ⟨q', hq, heq⟩ := Option.map_eq_some_iff.mp h
    cases heq
    obtain ⟨ring, -, rfl⟩ := Option.map_eq_some_iff.mp hq
    exact ⟨Or.inl rfl, Or.inl rfl⟩
  · rename_i ticket s told hh
    unfold announce at h
    split at h
    · cases h
      exact ⟨Or.inl rfl, Or.inl rfl⟩
    · rename_i w hw
      split at h
      · cases h
        exact ⟨Or.inr ⟨_, rfl⟩, Or.inl rfl⟩
      · split at h
        · cases h
          exact ⟨Or.inl rfl, Or.inr ⟨told, w, s, hw, rfl⟩⟩
        · contradiction

theorem advance_eq_some {e : Environment σ} {p q : Pool} {scene scene' : Scene σ} {i : Nat}
    (h : p.advance e scene i = some (q, scene')) :
    ∃ w next, p.workers[i]? = some w ∧ w.advance e p.closed p.ring scene = some next ∧
      q = { p with
        workers := p.workers.set i next.worker
        ring := next.ring
        reports := if p.reporting then p.reports ++ next.report.toList else p.reports } ∧
      scene' = next.scene := by
  unfold advance at h
  cases hw : p.workers[i]? with
  | none => simp [hw] at h
  | some w =>
      cases hn : w.advance e p.closed p.ring scene with
      | none => simp [hw, hn] at h
      | some next =>
          simp only [hw, hn, Option.bind_eq_bind, Option.bind_some, Option.pure_def,
            Option.some.injEq, Prod.mk.injEq] at h
          exact ⟨w, next, rfl, hn, h.1.symm, h.2.symm⟩

theorem move_of_advance {e : Environment σ} {p : Pool} {scene scene' : Scene σ} {i : Nat}
    {q : Pool} (h : p.advance e scene i = some (q, scene')) :
    Move p (Floor.deeds ⟨p, scene⟩ (.advance i) ⟨q, scene'⟩) q := by
  obtain ⟨w, next, hw, hn, rfl, rfl⟩ := advance_eq_some h
  obtain ⟨hi, -⟩ := List.getElem?_eq_some_iff.mp hw
  have hw' : (p.workers.set i next.worker)[i]? = some next.worker := by simp [hi]
  simp only [Floor.deeds, hw, hw']
  exact Move.turn i w _ next.worker next.ring next.report _ hw (Worker.turn_of_advance i hn) rfl

end Pool

namespace Floor

variable {σ : Type} {e : Environment σ} {f g : Floor σ} {a : Action}

theorem close_of_act (h : f.act e .close = some g) : f.pool.pending = [] ∧
    g = { f with pool := { f.pool with running := false, closed := true } } := by
  obtain ⟨q, hq, rfl⟩ := Option.map_eq_some_iff.mp h
  unfold Pool.close at hq
  split at hq
  · next hp =>
      cases hq
      exact ⟨hp, rfl⟩
  · contradiction

theorem join_of_act (h : f.act e .join = some g) :
    g = { f with scene := f.scene.log .stopped } := by
  simp only [act] at h
  split at h
  · exact (Option.some.inj h).symm
  · contradiction

/-- Whatever an action does to the pool is one of its moves. -/
theorem move_of_act (h : f.act e a = some g) : Pool.Move f.pool (f.deeds a g) g.pool := by
  cases a with
  | publish slot =>
      cases h
      exact .come slot
  | acquire ticket =>
      obtain ⟨q, hq, rfl⟩ := Option.map_eq_some_iff.mp h
      exact Pool.move_of_acquire hq
  | proceed =>
      obtain ⟨⟨q, scene⟩, hq, rfl⟩ := Option.map_eq_some_iff.mp h
      exact Pool.move_of_proceed hq
  | cancel ticket =>
      obtain ⟨q, hq, rfl⟩ := Option.map_eq_some_iff.mp h
      exact Pool.move_of_cancel hq
  | advance i =>
      obtain ⟨⟨q, scene⟩, hq, rfl⟩ := Option.map_eq_some_iff.mp h
      exact Pool.move_of_advance hq
  | stop i =>
      obtain ⟨q, hq, rfl⟩ := Option.map_eq_some_iff.mp h
      obtain ⟨w, hw, rfl⟩ := Option.map_eq_some_iff.mp hq
      exact .stop i w hw
  | close =>
      obtain ⟨hp, rfl⟩ := close_of_act h
      exact .close hp
  | join =>
      obtain rfl := join_of_act h
      exact .rest

end Floor

/-- An invariant of all moves, which holds at the start, holds throughout a run. -/
theorem Run.invariant {σ : Type} {e : Environment σ} {rely : Site σ → Site σ → Prop}
    {start f : Floor σ} {past : Trail} {I : Pool → Trail → Prop}
    (h : Run e rely start past f) (h₀ : I start.pool [])
    (hstep : ∀ p past deeds q, I p past → Pool.Move p deeds q → I q (past ++ deeds)) :
    I f.pool past := by
  induction h with
  | start => exact h₀
  | act _ hact ih => exact hstep _ _ _ _ ih (Floor.move_of_act hact)
  | meanwhile _ _ ih => exact ih

end ShardedDelivery
