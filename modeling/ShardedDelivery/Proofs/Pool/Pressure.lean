import ShardedDelivery.Proofs.Pool.Protocol

/-! # Back-pressure

A publisher is held up only by the place of the sequence that is one round back, never by an inbox:
what a handler has heard of and not released fits into the ring. So there is always room for the
next announcement, and while nobody has ended, whoever is waited for still has the sequence in
front of it. -/

namespace ShardedDelivery

/-- The points in the order in which they are passed. -/
def Phase.rank : Phase → Nat
  | .heard => 0
  | .received => 1
  | .claimed => 2
  | .released => 3
  | .begun => 4
  | .done => 5

/-- The sequence that a handler has in hand, and the last point that it has passed with it. -/
def Stage.point? : Stage → Option (Nat × Phase)
  | .received s => some (s, .received)
  | .claimed s _ => some (s, .claimed)
  | .released s _ => some (s, .released)
  | .dispatching s _ _ | .waiting s _ _ _ _ | .recorded s _ _ => some (s, .begun)
  | .idle | .ended => none

namespace Stage

variable {stage : Stage} {c : Phase → Nat} {φ ψ : Phase} {s : Nat}

/-- A handler has brought the sequence in hand past the points up to the last one that it has
passed. -/
theorem At.eq_of_point? (h : stage.At c) (hp : stage.point? = some (s, ψ)) (hφ : φ ≠ .heard) :
    c φ = if ψ.rank < φ.rank then s else s + 1 := by
  cases stage <;> simp only [point?, Option.some.injEq, Prod.mk.injEq, reduceCtorEq] at hp <;>
    obtain ⟨rfl, rfl⟩ := hp <;> cases φ <;> simp_all [At, Phase.rank]

theorem received_le_of_point? (hp : stage.point? = some (s, ψ)) : Phase.received.rank ≤ ψ.rank := by
  cases stage <;> simp only [point?, Option.some.injEq, Prod.mk.injEq, reduceCtorEq] at hp <;>
    obtain ⟨-, rfl⟩ := hp <;> simp [Phase.rank]

/-- A handler that is there and has nothing in hand is as far at every point. -/
theorem At.eq_of_idle (h : stage.At c) (hp : stage.point? = none) (hs : stage ≠ .ended)
    (hφ : φ ≠ .heard) : c φ = c .received := by
  cases stage <;> simp only [point?, reduceCtorEq] at hp
  case idle => cases φ <;> simp_all [At]
  case ended => exact absurd rfl hs

end Stage

/-- A handler has still to bring the sequence past this point: it has it queued, or in hand short of
the point. -/
def Worker.Ahead (w : Worker) (φ : Phase) (s : Nat) : Prop :=
  s ∈ w.inbox ∨ w.stage.point?.any fun (t, ψ) => t = s && ψ.rank < φ.rank

instance (w : Worker) (φ : Phase) (s : Nat) : Decidable (w.Ahead φ s) :=
  inferInstanceAs (Decidable (_ ∨ _))

namespace Worker

variable {σ : Type} {w : Worker} {c : Phase → Nat} {φ : Phase} {s : Nat}

/-- A handler that is there has ahead of it what it has heard of and not brought past the point. -/
theorem Stands.ahead_iff (h : w.Stands c) (hs : w.stage ≠ .ended) (hφ : φ ≠ .heard) :
    w.Ahead φ s ↔ c φ ≤ s ∧ s < c .heard := by
  have hle := h.received_le
  rw [Ahead, h.inbox hs, List.mem_range'_1]
  cases hp : w.stage.point? with
  | none =>
      rw [h.stage.eq_of_idle hp hs hφ]
      simp only [Option.any_none, Bool.false_eq_true, or_false]
      omega
  | some at? =>
      obtain ⟨t, ψ⟩ := at?
      have hreceived : c .received = t + 1 := by
        rw [h.stage.eq_of_point? hp (by simp), if_neg]
        exact Nat.not_lt.mpr (Stage.received_le_of_point? hp)
      rw [h.stage.eq_of_point? hp hφ]
      simp only [Option.any_some, Bool.and_eq_true, decide_eq_true_eq]
      split <;> omega

/-- A handler that has a sequence ahead of it goes on, unless a call of its delivery waits. -/
theorem Ahead.advance_isSome (h : w.Ahead φ s) (hg : ¬ w.isGone) (hcall : w.stalled? = none)
    (e : Environment σ) (closed : Bool) (ring : Ring) (scene : Scene σ) :
    (w.advance e closed ring scene).isSome := by
  unfold advance
  cases hw : w.stage with
  | idle =>
      cases hi : w.inbox with
      | nil => simp [Ahead, Stage.point?, hw, hi] at h
      | cons s rest => rfl
  | waiting s d c mark rest => simp [stalled?, hw] at hcall
  | ended => exact absurd (isGone_iff.mpr hw) hg
  | _ => rfl

end Worker

/-! ## A handler that goes on -/

namespace Floor

variable {σ : Type} {e : Environment σ} {i s : Nat} {f : Floor σ} {w : Worker}
  {P Q : Worker → Prop} {inbox : List Nat}

/-- The floors that a handler comes to while everybody else stands still. -/
def GoesOn (e : Environment σ) (i : Nat) : Floor σ → Floor σ → Prop :=
  Relation.ReflTransGen fun f g => f.act e (.advance i) = some g

/-- By itself, a handler comes to be like this. -/
def Comes (e : Environment σ) (i : Nat) (P : Worker → Prop) (f : Floor σ) : Prop :=
  ∃ g w, f.GoesOn e i g ∧ g.pool.workers[i]? = some w ∧ P w

theorem exists_advance (hw : f.pool.workers[i]? = some w) {next : Worker.Advance σ}
    (h : w.advance e f.pool.closed f.pool.ring f.scene = some next) :
    ∃ g, f.act e (.advance i) = some g ∧ g.pool.workers[i]? = some next.worker := by
  refine ⟨_, by simp [act, Pool.advance, hw, h]; rfl, ?_⟩
  simp [(List.getElem?_eq_some_iff.mp hw).1]

theorem comes_here (hw : f.pool.workers[i]? = some w) (h : P w) : f.Comes e i P :=
  ⟨f, w, .refl, hw, h⟩

theorem comes_step (hw : f.pool.workers[i]? = some w) {next : Worker.Advance σ}
    (h : w.advance e f.pool.closed f.pool.ring f.scene = some next)
    (hnext : ∀ g : Floor σ, g.pool.workers[i]? = some next.worker → g.Comes e i P) :
    f.Comes e i P := by
  obtain ⟨g, hact, hg⟩ := exists_advance hw h
  obtain ⟨g', w', hgoes, hw', hP⟩ := hnext g hg
  exact ⟨g', w', .head hact hgoes, hw', hP⟩

theorem Comes.trans (h : f.Comes e i P)
    (hPQ : ∀ (g : Floor σ) w, g.pool.workers[i]? = some w → P w → g.Comes e i Q) :
    f.Comes e i Q := by
  obtain ⟨g, w, hgoes, hw, hP⟩ := h
  obtain ⟨g', w', hgoes', hw', hQ⟩ := hPQ g w hw hP
  exact ⟨g', w', hgoes.trans hgoes', hw', hQ⟩

/-- With this inbox, a handler has nothing in hand any more, or a call of its delivery waits. -/
def Rests (inbox : List Nat) (w : Worker) : Prop :=
  w.inbox = inbox ∧ (w.stage = .idle ∨ w.stalled?.isSome)

theorem comes_of_recorded {d : Delivery} {report : Report} (hw : f.pool.workers[i]? = some w)
    (hs : w.stage = .recorded s d report) (hi : w.inbox = inbox) : f.Comes e i (Rests inbox) := by
  refine comes_step hw (by simp only [Worker.advance, hs]; rfl) fun g hg => ?_
  exact comes_here hg ⟨hi, .inl rfl⟩

/-- A step of a plan ends the delivery, or the call waits, or the handler goes on from there. -/
theorem comes_of_step {d : Delivery} {plan : Plan} (hw : f.pool.workers[i]? = some w)
    (hs : w.stage = .dispatching s d plan) (hi : w.inbox = inbox)
    (hgoing : ∀ rest, (plan.step e w.handler.tally f.scene).1 = .going rest →
      ∀ (g : Floor σ) (w' : Worker), g.pool.workers[i]? = some w' →
        w'.stage = .dispatching s d rest → w'.inbox = inbox → g.Comes e i (Rests inbox)) :
    f.Comes e i (Rests inbox) := by
  rcases hstep : plan.step e w.handler.tally f.scene with ⟨(ending | rest), tally, scene⟩
  all_goals
    rw [hstep] at hgoing
    refine comes_step hw (by rw [Worker.advance_dispatching hs, hstep]) fun g hg => ?_
  · cases ending with
    | finished outcome => exact comes_of_recorded hg rfl hi
    | crashed crash => exact comes_of_recorded hg rfl hi
    | waiting c mark rest => exact comes_here hg ⟨hi, .inr rfl⟩
  · exact hgoing rest rfl g _ hg rfl hi

/-- A delivery comes to its end, or to a call that waits. -/
theorem comes_of_dispatching {d : Delivery} {plan : Plan} (hw : f.pool.workers[i]? = some w)
    (hs : w.stage = .dispatching s d plan) (hi : w.inbox = inbox) :
    f.Comes e i (Rests inbox) := by
  induction plan generalizing f w with
  | finish outcome => exact comes_of_step hw hs hi nofun
  | log line rest ih | edit change rest ih | countRollback rest ih =>
      refine comes_of_step hw hs hi fun rest' h g w' hw' hs' hi' => ?_
      cases h
      exact ih hw' hs' hi'
  | check q rest ih =>
      refine comes_of_step hw hs hi fun rest' h g w' hw' hs' hi' => ?_
      cases h
      exact ih _ hw' hs' hi'
  | call c rest ih =>
      refine comes_of_step hw hs hi fun rest' h g w' hw' hs' hi' => ?_
      rcases hcall : f.scene.call e c with ⟨(crash | reply) | mark, scene⟩
      all_goals simp only [Plan.step, hcall] at h
      · contradiction
      · cases h
        exact ih reply hw' hs' hi'
      · contradiction

theorem comes_of_released {slot : Slot} (hw : f.pool.workers[i]? = some w)
    (hs : w.stage = .released s slot) (hi : w.inbox = inbox) : f.Comes e i (Rests inbox) := by
  refine comes_step hw (Worker.advance_released hs) fun g hg => ?_
  cases hc : w.handler.claim? slot with
  | none =>
      rw [Worker.begin_of_none s f.scene hc] at hg
      exact comes_here hg ⟨hi, .inl rfl⟩
  | some d =>
      rw [Worker.begin_of_some s f.scene hc] at hg
      exact comes_of_dispatching hg rfl hi

/-- With this inbox, a handler has just released the sequence. -/
def Releases (s : Nat) (inbox : List Nat) (w : Worker) : Prop :=
  w.inbox = inbox ∧ ∃ slot, w.stage = .released s slot

/-- A handler that has a sequence in hand and has not released it, releases it. -/
theorem comes_of_claimed {slot : Slot} (hw : f.pool.workers[i]? = some w)
    (hs : w.stage = .claimed s slot) (hi : w.inbox = inbox) : f.Comes e i (Releases s inbox) := by
  refine comes_step hw (by simp only [Worker.advance, hs]; rfl) fun g hg => ?_
  exact comes_here hg ⟨hi, slot, rfl⟩

theorem comes_of_received (hw : f.pool.workers[i]? = some w) (hs : w.stage = .received s)
    (hi : w.inbox = inbox) : f.Comes e i (Releases s inbox) :=
  comes_step hw (Worker.advance_received hs) fun _ hg => comes_of_claimed hg rfl hi

/-- A handler that is there comes to the end of what it has in hand, or to a call that waits. -/
theorem comes_to_rest (hw : f.pool.workers[i]? = some w) (hg : ¬ w.isGone) :
    f.Comes e i (Rests w.inbox) := by
  cases hs : w.stage with
  | idle => exact comes_here hw ⟨rfl, .inl hs⟩
  | received s =>
      exact (comes_of_received hw hs rfl).trans fun g w' hw' ⟨hi, slot, hs'⟩ =>
        comes_of_released hw' hs' hi
  | claimed s slot =>
      exact (comes_of_claimed hw hs rfl).trans fun g w' hw' ⟨hi, slot, hs'⟩ =>
        comes_of_released hw' hs' hi
  | released s slot => exact comes_of_released hw hs rfl
  | dispatching s d plan => exact comes_of_dispatching hw hs rfl
  | waiting s d c mark rest => exact comes_here hw ⟨rfl, .inr (by rw [Worker.stalled?, hs]; rfl)⟩
  | recorded s d report => exact comes_of_recorded hw hs rfl
  | ended => exact absurd (Worker.isGone_iff.mpr hs) hg

/-- A handler comes to release whatever it has to release, unless a call waits before. -/
theorem comes_to_release (hw : f.pool.workers[i]? = some w) (hg : ¬ w.isGone)
    (hahead : w.Ahead .released s) :
    f.Comes e i fun w' => (∃ slot, w'.stage = .released s slot) ∨ w'.stalled?.isSome := by
  rcases hahead with hmem | hpoint
  · -- by induction on the inbox: what comes before the sequence is dealt with first
    generalize hi : w.inbox = inbox at hmem
    induction inbox generalizing f w with
    | nil => contradiction
    | cons t rest ih =>
        refine (comes_to_rest hw hg).trans fun g w' hw' hrests => ?_
        obtain ⟨hi', hidle | hstalled⟩ := hrests
        · rw [hi] at hi'
          refine comes_step hw' (by simp only [Worker.advance, hidle, hi']; rfl) fun g' hg' => ?_
          rcases List.mem_cons.mp hmem with rfl | hmem
          · exact (comes_of_received hg' rfl rfl).trans fun _ _ hw'' h =>
              comes_here hw'' (.inl h.2)
          · exact ih hg' (by simp [Worker.isGone]) rfl hmem
        · exact comes_here hw' (.inr hstalled)
  · cases hs : w.stage with
    | received t =>
        simp only [hs, Stage.point?, Option.any_some, Bool.and_eq_true, decide_eq_true_eq] at hpoint
        obtain ⟨rfl, -⟩ := hpoint
        exact (comes_of_received hw hs rfl).trans fun _ _ hw' h => comes_here hw' (.inl h.2)
    | claimed t slot =>
        simp only [hs, Stage.point?, Option.any_some, Bool.and_eq_true, decide_eq_true_eq] at hpoint
        obtain ⟨rfl, -⟩ := hpoint
        exact (comes_of_claimed hw hs rfl).trans fun _ _ hw' h => comes_here hw' (.inl h.2)
    | _ => simp [hs, Stage.point?, Phase.rank] at hpoint

end Floor

namespace Pool

/-- The publisher with the lock waits for the place of the next sequence. -/
def Blocked (p : Pool) : Prop :=
  ∃ ticket slot, p.holder = some ⟨ticket, .writing slot⟩ ∧ p.ring.write? p.next slot = none

theorem announcement_of_blocked {p : Pool} (h : p.Blocked) : p.announcement = none := by
  obtain ⟨ticket, slot, hh, -⟩ := h
  simp [announcement, hh]

theorem holder_of_announcement {p : Pool} {s told : Nat} (h : p.announcement = some (s, told)) :
    ∃ ticket, p.holder = some ⟨ticket, .announcing s told⟩ := by
  unfold announcement at h
  split at h
  · rename_i ticket s' told' hh
    cases h
    exact ⟨ticket, hh⟩
  · contradiction

/-- Nobody holds a place to which nothing was written yet. -/
def Spare (p : Pool) : Prop :=
  ∀ t, p.next ≤ t → t < p.ring.capacity → (p.ring.place t).pending = 0

theorem Spare.new (config : Config) (reporting : Bool) : (Pool.new config reporting).Spare := by
  intro t _ _
  simp [Pool.new, Ring.new, Ring.place]

/-- In the first round every sequence has a place of its own. -/
theorem mod_ne_of_lt {s t capacity : Nat} (hst : s < t) (ht : t < capacity) :
    s % capacity ≠ t % capacity := by
  rw [Nat.mod_eq_of_lt (hst.trans ht), Nat.mod_eq_of_lt ht]
  exact Nat.ne_of_lt hst

/-- Only places of earlier sequences are released or given up. -/
theorem Spare.move {n : Nat} {p q : Pool} {past deeds : Trail} (h : p.Spare) (hs : p.Sound n past)
    (hm : p.Move deeds q) : q.Spare := by
  intro t hle hlt
  rw [hm.capacity_eq] at hlt
  cases hm with
  | come slot =>
      obtain ⟨waiting, results, heq, -⟩ := p.publish_eq slot
      rw [heq] at hle ⊢
      exact h t hle hlt
  | write ticket slot ring hh hr =>
      have hplace : ring.place t = p.ring.place t := by
        rw [Ring.place_write? hr, if_neg (mod_ne_of_lt hle hlt)]
      simp only [hplace]
      exact h t (Nat.le_of_succ_le hle) hlt
  | giveUp ticket s told w hh hw hg =>
      have hnext := (hs.positioned.announcing s told (by simp [announcement, hh])).1
      have hplace : (p.ring.abandon s (UInt64.ofNat (p.workers.length - told))).place t =
          p.ring.place t := by
        rw [Ring.place_abandon, if_neg fun hmod => mod_ne_of_lt (hnext.le.trans hle) hlt hmod.1]
      simp only [finish, hplace]
      exact h t hle hlt
  | turn i w _ w' ring report reports hw ht hr =>
      have hzero := h t hle hlt
      cases ht with
      | claim s hst =>
          rw [Ring.place_claim]
          split <;> exact hzero
      | release s slot hst =>
          obtain ⟨⟨hcurrent, -⟩, -⟩ := hs.pending_pos hw hst
          rw [Ring.place_release, if_neg (mod_ne_of_lt (hcurrent.trans_le hle) hlt)]
          exact hzero
      | _ => exact hzero
  | _ => exact h t hle hlt

namespace Sound

variable {n : Nat} {p : Pool} {past : Trail}

/-- A publisher is blocked by those who hold the sequence that is one round back. -/
theorem held_of_blocked (h : p.Sound n past) (hspare : p.Spare) (hb : p.Blocked) :
    ∃ s, s + p.ring.capacity = p.next ∧ ∃ i < n,
      past.reached i .released ≤ s ∧ s < past.reached i .heard := by
  have hnone := announcement_of_blocked hb
  obtain ⟨ticket, slot, -, hr⟩ := hb
  have hpending : (p.ring.place p.next).pending ≠ 0 := Ring.write?_eq_none_iff.mp hr
  have hround : p.ring.capacity ≤ p.next := by
    by_contra hlt
    exact hpending (hspare p.next le_rfl (Nat.lt_of_not_le hlt))
  refine ⟨p.next - p.ring.capacity, Nat.sub_add_cancel hround, ?_⟩
  have hpos : 0 < p.ring.capacity := p.ring.size_pos
  have hcount := h.placed.pending (p.next - p.ring.capacity) ⟨by omega, by omega⟩
  rw [p.ring.place_congr (Nat.mod_eq_sub_mod hround).symm] at hcount
  have hcard : 0 < (p.holders n past (p.next - p.ring.capacity)).card := by
    rw [← hcount, Nat.pos_iff_ne_zero]
    exact fun hzero => hpending (UInt64.toNat_inj.mp hzero)
  obtain ⟨i, hi⟩ := Finset.card_pos.mp hcard
  obtain ⟨hlt, hreleased, hheard | howes⟩ := mem_holders.mp hi
  · exact ⟨i, hlt, hreleased, hheard⟩
  · simp [owes_of_none hnone] at howes

section There

variable {i : Nat} {w : Worker}

/-- A handler that is there has ahead of it what it holds. -/
theorem ahead_iff (h : p.Sound n past) (hw : p.workers[i]? = some w) (hg : ¬ w.isGone) {φ : Phase}
    {s : Nat} (hφ : φ ≠ .heard) :
    w.Ahead φ s ↔ past.reached i φ ≤ s ∧ s < past.reached i .heard :=
  (h.positioned.stands i w hw).ahead_iff (mt Worker.isGone_iff.mpr hg) hφ

/-- The inbox of a handler that is there holds the sequences that it has heard of and not
received. -/
theorem inbox_eq (h : p.Sound n past) (hw : p.workers[i]? = some w) (hg : ¬ w.isGone) :
    w.inbox = List.range' (past.reached i .received) w.inbox.length := by
  have hinbox := (h.positioned.stands i w hw).inbox (mt Worker.isGone_iff.mpr hg)
  rw [hinbox, List.length_range']

/-- What a handler has heard of and not received, it still holds: the first of it is less than a
round back. -/
theorem heard_le_of_received (h : p.Sound n past) (hi : i < n)
    (hlt : past.reached i .received < past.reached i .heard) :
    p.next ≤ past.reached i .received + p.ring.capacity := by
  obtain ⟨-, -, hreleased, hclaimed, -⟩ := h.positioned.chain h.staffed hi
  have hhold : p.Holds past i (past.reached i .received) := ⟨by omega, Or.inl hlt⟩
  exact (h.placed.live i hi _ hhold).2

theorem length_inbox_le (h : p.Sound n past) (hw : p.workers[i]? = some w) (hg : ¬ w.isGone) :
    w.inbox.length ≤ p.ring.capacity := by
  have hheard := h.positioned.heard_le i
  have hround := h.heard_le_of_received (h.staffed.lt_of_getElem? hw)
  rw [(h.positioned.stands i w hw).inbox (mt Worker.isGone_iff.mpr hg), List.length_range']
  omega

/-- A handler that is there has room for the sequence that is announced to it. -/
theorem length_inbox_lt (h : p.Sound n past) {s told : Nat} (ha : p.announcement = some (s, told))
    (hw : p.workers[told]? = some w) (hg : ¬ w.isGone) : w.inbox.length < p.ring.capacity := by
  have hstage := mt Worker.isGone_iff.mpr hg
  have hheard := (h.positioned.heard_of_announcement h.staffed ha hw hstage).1
  have hnext := (h.positioned.announcing s told ha).1
  have hpos : 0 < p.ring.capacity := p.ring.size_pos
  have hround := h.heard_le_of_received (h.staffed.lt_of_getElem? hw)
  rw [(h.positioned.stands told w hw).inbox hstage, List.length_range']
  omega

end There

end Sound

end Pool

namespace Floor

variable {σ : Type}

/-- Nobody in a pool with rings of this capacity is held up without need. -/
structure Flows (capacity : Nat) (e : Environment σ) (f : Floor σ) : Prop where
  /-- An inbox holds one round of sequences at most. -/
  bounded : ∀ w ∈ f.pool.workers, w.inbox.length ≤ capacity
  /-- They follow one another. -/
  consecutive : ∀ w ∈ f.pool.workers, ∃ first, w.inbox = List.range' first w.inbox.length
  /-- There is room in the inbox for the sequence that is announced to it. -/
  room : ∀ s told (w : Worker), f.pool.announcement = some (s, told) →
    f.pool.workers[told]? = some w → w.inbox.length < capacity
  /-- An announcement never waits. -/
  announces : f.pool.announcement.isSome → (f.act e .proceed).isSome
  /-- A blocked publisher waits for a handler that has still to release the sequence one round back.
  That handler goes on unless a call of its delivery waits. By itself it comes to release the
  sequence, unless it comes to a call that waits before. -/
  awaited : f.pool.Blocked → ∃ s, s + capacity = f.pool.next ∧
    ∃ i w, f.pool.workers[i]? = some w ∧ w.Ahead .released s ∧
      (w.stalled? = none → (f.act e (.advance i)).isSome) ∧
      f.Comes e i fun w' => (∃ slot, w'.stage = .released s slot) ∨ w'.stalled?.isSome

/-- An announcement goes on when there is room. -/
theorem proceed_isSome {e : Environment σ} {f : Floor σ} {s told : Nat}
    (ha : f.pool.announcement = some (s, told))
    (hroom : ∀ w, f.pool.workers[told]? = some w → w.inbox.length < f.pool.ring.capacity) :
    (f.act e .proceed).isSome := by
  obtain ⟨ticket, hh⟩ := Pool.holder_of_announcement ha
  simp only [act, Pool.proceed, hh, Pool.announce, Option.isSome_map]
  cases hw : f.pool.workers[told]? with
  | none => rfl
  | some w =>
      simp only [hroom w hw, if_true]
      split <;> rfl

theorem advance_isSome {e : Environment σ} {f : Floor σ} {i : Nat} {w : Worker}
    (hw : f.pool.workers[i]? = some w)
    (h : (w.advance e f.pool.closed f.pool.ring f.scene).isSome) :
    (f.act e (.advance i)).isSome := by
  obtain ⟨next, hnext⟩ := Option.isSome_iff_exists.mp h
  obtain ⟨g, hact, -⟩ := exists_advance hw hnext
  rw [hact]
  rfl

end Floor

/-- An event is published and announced, and before any handler has looked at it the next one
comes. -/
def Rehearsal.rush : List Action :=
  [.publish (.holding delivery false), .acquire 0] ++ List.replicate 4 .proceed ++
    [.publish (.holding delivery false), .acquire 1]

namespace Run

variable {σ : Type} {e : Environment σ} {rely : Site σ → Site σ → Prop} {config : Config}
  {reporting : Bool} {scene : Scene σ} {past : Trail} {f : Floor σ}

theorem spare (h : Run e rely (.opening config reporting scene) past f) : f.pool.Spare := by
  have hboth : f.pool.Sound config.handlers.toNat past ∧ f.pool.Spare := by
    refine h.invariant (I := fun p past => p.Sound config.handlers.toNat past ∧ p.Spare)
      ⟨.new config reporting, .new config reporting⟩ ?_
    rintro p past deeds q ⟨hsound, hspare⟩ hm
    exact ⟨hsound.move hm, hspare.move hsound hm⟩
  exact hboth.2

/-- As long as no handler has ended, inboxes never fill up and no publisher waits in vain. -/
theorem flows_while_staffed (h : Run e rely (.opening config reporting scene) past f)
    (hgone : ∀ w ∈ f.pool.workers, ¬ w.isGone) : f.Flows config.ringSize.toNat e := by
  have hsound := h.sound
  rw [← h.capacity_eq]
  have hthere : ∀ {i : Nat} {w : Worker}, f.pool.workers[i]? = some w → ¬ w.isGone :=
    fun hw => hgone _ (List.mem_of_getElem? hw)
  have hroom : ∀ s told (w : Worker), f.pool.announcement = some (s, told) →
      f.pool.workers[told]? = some w → w.inbox.length < f.pool.ring.capacity :=
    fun s told w ha hw => hsound.length_inbox_lt ha hw (hthere hw)
  exact {
    bounded := by
      intro w hmem
      obtain ⟨i, hw⟩ := List.getElem?_of_mem hmem
      exact hsound.length_inbox_le hw (hthere hw)
    consecutive := by
      intro w hmem
      obtain ⟨i, hw⟩ := List.getElem?_of_mem hmem
      exact ⟨_, hsound.inbox_eq hw (hthere hw)⟩
    room := hroom
    announces := by
      intro hsome
      obtain ⟨⟨s, told⟩, ha⟩ := Option.isSome_iff_exists.mp hsome
      exact Floor.proceed_isSome ha fun w hw => hroom s told w ha hw
    awaited := by
      intro hb
      obtain ⟨s, hround, i, hi, hheld⟩ := hsound.held_of_blocked h.spare hb
      obtain ⟨w, hw⟩ := hsound.staffed.exists_worker hi
      have hahead := (hsound.ahead_iff hw (hthere hw) (by simp)).mpr hheld
      refine ⟨s, hround, i, w, hw, hahead, fun hcall => ?_, ?_⟩
      · exact Floor.advance_isSome hw (hahead.advance_isSome (hthere hw) hcall _ _ _ _)
      · exact Floor.comes_to_release hw (hthere hw) hahead }

/-- A second publisher of the rehearsal is blocked before the handlers have looked at the event of
the first one. -/
theorem flows_while_staffed_rehearsal : ∃ past f,
    Run (Scripted.environment false) (fun _ _ => False) Rehearsal.start past f ∧
      f.pool.Blocked ∧ f.Flows 1 (Scripted.environment false) := by
  obtain ⟨past, f, hrun, hholder, hpending, hgone⟩ := Rehearsal.exists_run
    Rehearsal.start Rehearsal.rush
    (P := fun _ f => f.pool.holder = some ⟨1, .writing (.holding Rehearsal.delivery false)⟩ ∧
      (f.pool.ring.place f.pool.next).pending ≠ 0 ∧ f.pool.workers.all (! ·.isGone))
    (by decide +kernel)
  refine ⟨past, f, hrun, ⟨1, _, hholder, Ring.write?_eq_none_iff.mpr hpending⟩, ?_⟩
  refine flows_while_staffed hrun fun w hw => ?_
  simpa using List.all_eq_true.mp hgone w hw

end Run

end ShardedDelivery
