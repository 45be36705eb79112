import ShardedDelivery.Pool.Settle
import ShardedDelivery.Proofs.Pool.Accounts
import ShardedDelivery.Proofs.Pool.Protocol
import ShardedDelivery.Proofs.Pool.Refinement

/-! # Totals

When a pool has drained and no handler was stopped, everything adds up: the counters of all
handlers, the reports that were sent, and the events that were published. -/

namespace ShardedDelivery

open Finset

/-! ## Events and reports -/

namespace Slot

/-- Only what falls to a handler gives it something. -/
theorem shareOf_ne_empty_iff {n i : Nat} {slot : Slot} :
    slot.shareOf n i ≠ .empty ↔ (slot.shareOf n i).fallsTo n i := by
  unfold shareOf
  split
  · next hfalls =>
      refine ⟨fun _ => hfalls, ?_⟩
      rintro - rfl
      simp [fallsTo, empty] at hfalls
  · simp [fallsTo, empty]

end Slot

theorem countP_eq_sum_getElem? {α : Type} (p : α → Bool) (xs : List α) :
    xs.countP p = ∑ s ∈ range xs.length, (xs[s]?.any p).toNat := by
  induction xs with
  | nil => rfl
  | cons x xs ih =>
      rw [List.length_cons, sum_range_succ', List.countP_cons, ih]
      cases hx : p x <;> simp [hx]

namespace Trail

/-- The deliveries that are begun are those that are shown under some sequence. -/
theorem owned_eq_sum {n k : Nat} {past : Trail}
    (h : ∀ x ∈ past, (x.owns n).toNat = ∑ s ∈ range k, (x.shown? s).isSome.toNat) :
    past.owned n = ∑ s ∈ range k, (past.shown s).length := by
  induction past with
  | nil => simp [owned, shown]
  | cons x past ih =>
      have hrest := ih fun y hy => h y (List.mem_cons_of_mem _ hy)
      have hx := h x List.mem_cons_self
      have hlength (s : Nat) :
          (shown (x :: past) s).length = (x.shown? s).isSome.toNat + (shown past s).length := by
        cases hs : x.shown? s <;> simp [shown, hs, Nat.add_comm]
      simp only [hlength, sum_add_distrib, ← hrest, ← hx]
      cases howns : x.owns n <;> simp [owned, howns, Nat.add_comm]

end Trail

namespace Pool.Sound

variable {n : Nat} {p : Pool} {past : Trail}

theorem owned_eq_sum (h : p.Sound n past) :
    past.owned n = ∑ s ∈ range p.next, (past.shown s).length := by
  refine Trail.owned_eq_sum fun x hx => ?_
  have hfaithful := h.shared.deeds x hx
  cases x with
  | begun i t slot =>
      obtain ⟨event, hevent, rfl⟩ := hfaithful
      obtain ⟨hlt, -⟩ := List.getElem?_eq_some_iff.mp hevent
      rw [h.positioned.written] at hlt
      have hshown (s : Nat) : (Deed.begun i t (event.shareOf n i)).shown? s =
          if t = s then
            if (event.shareOf n i).fallsTo n i then some (i, event.shareOf n i) else none
          else none := by
        simp only [Deed.shown?, ite_and, Slot.shareOf_ne_empty_iff]
      have hmem : t ∈ range p.next := mem_range.mpr hlt
      simp only [hshown, apply_ite Option.isSome, apply_ite Bool.toNat, Option.isSome_none,
        Bool.toNat_false, sum_ite_eq, hmem, if_true, Deed.owns]
      cases (event.shareOf n i).fallsTo n i <;> rfl
  | _ => simp [Deed.owns, Deed.shown?]

/-- Once a pool has drained, every delivery that was published has been begun by its owner. -/
theorem owned_of_drained (h : p.Sound n past) (hn : 0 < n) (hstop : ∀ i, .stopped i ∉ past)
    (hd : p.Drained) : past.owned n = past.events.countP (·.delivery.isSome) := by
  rw [h.owned_eq_sum, countP_eq_sum_getElem?, h.positioned.written]
  refine sum_congr rfl fun s hs => ?_
  have hlt : s < past.events.length := h.positioned.written ▸ mem_range.mp hs
  have hevent : past.events[s]? = some past.events[s] := List.getElem?_eq_getElem hlt
  rw [hevent, Option.any_some]
  cases hdelivery : past.events[s].delivery with
  | none =>
      -- what is shown to anyone falls to them
      rw [List.length_eq_zero_iff.mpr, Option.isSome_none, Bool.toNat_false]
      rw [List.eq_nil_iff_forall_not_mem]
      rintro ⟨i, slot⟩ hshown
      obtain ⟨-, hfalls⟩ := h.eq_of_shown hevent hshown
      simp [Slot.fallsTo, hdelivery] at hfalls
  | some d =>
      have howner := d.subscription.channel.shard_lt_of_pos hn
      have hbegun := h.reached_of_drained hstop hd howner .begun
      have hfalls : past.events[s].fallsTo n (d.subscription.channel.shard n) :=
        Slot.fallsTo_iff.mpr ⟨d, hdelivery, rfl⟩
      have hshown := h.shown_of_begun hevent hfalls (by rw [hbegun]; exact mem_range.mp hs)
      rcases h.shown_eq hevent hdelivery with hnil | hone
      · simp [hnil] at hshown
      · rw [hone]
        rfl

end Pool.Sound

/-! ## The dead letter queue -/

/-- A call that moves a message, if it does, to this dead letter queue. -/
def Call.MovesTo (queue : String) (c : Call) : Prop :=
  ∀ m destination queue', c = .moveToDeadLetters m destination queue' → queue' = queue

namespace Plan

/-- A plan that makes only such calls, whatever it is told. -/
def Asks (P : Call → Prop) : Plan → Prop
  | finish _ => True
  | log _ rest => rest.Asks P
  | edit _ rest => rest.Asks P
  | countRollback rest => rest.Asks P
  | check _ rest => ∀ answer, (rest answer).Asks P
  | call c rest => P c ∧ ∀ reply, (rest reply).Asks P

section Shapes

variable {queue : String} {d : Delivery}

theorem asks_deadLetter (queue : String) (m : Message) :
    (deadLetter queue m).Asks (Call.MovesTo queue) := by
  unfold deadLetter
  split
  · trivial
  · refine ⟨by rintro _ _ _ ⟨⟩; rfl, fun reply => ?_⟩
    cases reply with
    | ok _ => exact ⟨nofun, fun _ => ⟨nofun, fun _ => trivial⟩⟩
    | error _ => trivial

theorem asks_recover : (recover d).Asks (Call.MovesTo queue) := by
  unfold recover
  split
  · exact ⟨nofun, fun _ => ⟨nofun, fun _ => trivial⟩⟩
  · intro answer
    cases answer <;> trivial

theorem asks_afterSend (queue : String) (d : Delivery) (reply : Except SendFailure Unit) :
    (afterSend queue d reply).Asks (Call.MovesTo queue) := by
  cases reply with
  | ok _ => exact ⟨nofun, fun _ => ⟨nofun, fun _ => trivial⟩⟩
  | error failure =>
      cases failure with
      | ruleViolation reason => exact asks_deadLetter queue d.message
      | transient reason => exact asks_recover
      | unexpected reason => trivial

theorem asks_dispatch (queue : String) (d : Delivery) (failed : Bool) :
    (dispatch queue d failed).Asks (Call.MovesTo queue) := by
  unfold dispatch
  split
  · exact asks_deadLetter queue d.message
  · intro stale
    cases stale with
    | true => exact ⟨nofun, fun _ => trivial⟩
    | false =>
        intro active
        cases active with
        | false => exact asks_recover
        | true => exact ⟨nofun, asks_afterSend queue d⟩

end Shapes

end Plan

variable {σ : Type} {e : Environment σ}

/-- What remains to be done at a stage makes only such calls. -/
def Stage.Asks (P : Call → Prop) : Stage → Prop
  | .dispatching _ _ plan => plan.Asks P
  | .waiting _ _ _ _ rest => ∀ reply, (rest reply).Asks P
  | _ => True

namespace Worker

variable {P : Call → Prop} {w : Worker} {scene : Scene σ}

/-- What a piece of a plan leads to makes only such calls. -/
theorem asks_follow (w : Worker) (s : Nat) (d : Delivery) (scene : Scene σ) {plan : Plan}
    (hplan : plan.Asks P) (e : Environment σ) (t : Tally) (x : Scene σ) :
    (w.follow s d scene (plan.step e t x).1).1.stage.Asks P := by
  cases plan with
  | finish outcome => trivial
  | log line rest => exact hplan
  | edit change rest => exact hplan
  | countRollback rest => exact hplan
  | check q rest => exact hplan _
  | call c rest =>
      simp only [Plan.step]
      rcases x.call e c with ⟨(crash | reply) | mark, x'⟩
      · trivial
      · exact hplan.2 reply
      · exact hplan.2

/-- A handler whose plans make only such calls makes only such calls. -/
theorem Stride.asks {w' : Worker} (h : w.Stride e scene w') (i : Nat) (hw : w.stage.Asks P)
    (hplan : ∀ d failed, (Plan.dispatch w.handler.queue d failed).Asks P) :
    w'.stage.Asks P ∧ ∀ c ∈ (Trail.calls (w.stage.deeds i w'.stage)).map Prod.snd, P c := by
  cases h with
  | minor hb hh hd =>
      rw [Trail.calls_of_minor (hd i)]
      refine ⟨?_, by simp⟩
      cases hs : w'.stage <;> first | trivial | simp [hs, Stage.busy?] at hb
  | begin s slot hs =>
      rw [hs]
      cases hc : w.handler.claim? slot with
      | none =>
          rw [begin_of_none s scene hc]
          exact ⟨trivial, by simp [Stage.deeds, Trail.calls, Deed.call?]⟩
      | some d =>
          rw [begin_of_some s scene hc]
          exact ⟨hplan d slot.failed, by simp [Stage.deeds, Trail.calls, Deed.call?]⟩
  | work s d plan hs =>
      rw [hs] at hw ⊢
      refine ⟨asks_follow _ s d _ hw e _ _, ?_⟩
      rw [Stage.deeds_dispatching, Trail.calls_append, Trail.calls_recording, Trail.calls_calls]
      intro c hc
      cases plan with
      | call c' rest =>
          obtain rfl : c = c' := by simpa [Plan.calls] using hc
          exact hw.1
      | _ => simp [Plan.calls] at hc
  | resume s d c mark rest result scene' hs =>
      rw [hs] at hw ⊢
      refine ⟨?_, by simp [Stage.deeds]⟩
      cases result with
      | ok reply => exact hw reply
      | error crash => trivial

end Worker

namespace Pool

/-- All calls so far and to come move messages to the pool's own dead letter queue only. -/
structure Addressed (p : Pool) (past : Trail) : Prop where
  stages : ∀ w ∈ p.workers, w.stage.Asks (Call.MovesTo p.config.queue)
  calls : ∀ c ∈ past.calls.map Prod.snd, c.MovesTo p.config.queue

namespace Addressed

variable {n : Nat} {past : Trail}

theorem new (config : Config) (reporting : Bool) : Addressed (.new config reporting) [] where
  stages := by
    simp only [Pool.new, List.mem_map]
    rintro w ⟨i, -, rfl⟩
    trivial
  calls := by simp [Trail.calls]

theorem act {f g : Floor σ} {a : Action} (h : Addressed f.pool past)
    (hs : f.pool.Staffed n past) (hact : f.act e a = some g) :
    Addressed g.pool (past ++ f.deeds a g) := by
  have hconfig := (Floor.move_of_act hact).config_eq
  have hstep := Floor.turn_or_pause hact
  generalize f.deeds a g = deeds at hstep hconfig ⊢
  cases hstep with
  | turn i w next hw hnext =>
      have hqueue : w.handler.queue = f.pool.config.queue :=
        congrArg (·.2.2) (hs.role i w hw)
      have hplan (d : Delivery) (failed : Bool) :
          (Plan.dispatch w.handler.queue d failed).Asks (Call.MovesTo f.pool.config.queue) :=
        hqueue ▸ Plan.asks_dispatch w.handler.queue d failed
      obtain ⟨hstage, hcalls⟩ := (Worker.stride_of_advance hnext).asks i
        (h.stages w (List.mem_of_getElem? hw)) hplan
      constructor
      · intro v hv
        rcases List.mem_or_eq_of_mem_set hv with hv | rfl
        · exact h.stages v hv
        · exact hstage
      · rw [Trail.calls_append, List.map_append, List.forall_mem_append]
        exact ⟨h.calls, hcalls⟩
  | pause hpause =>
      constructor
      · intro v hv
        rw [hconfig]
        obtain ⟨i, hi⟩ := List.mem_iff_getElem?.mp hv
        obtain ⟨w, hw, -, hstage | ⟨hended, -⟩⟩ := hpause.workers i v hi
        · rw [hstage]
          exact h.stages w (List.mem_of_getElem? hw)
        · rw [hended]
          trivial
      · rw [Trail.calls_append, Trail.calls_of_minor hpause.minor, List.append_nil, hconfig]
        exact h.calls

end Addressed

/-! ## Places that were never written -/

/-- A place that has not been written yet is empty. -/
def Unused (p : Pool) : Prop :=
  ∀ s, p.next ≤ s → s < p.ring.capacity → (p.ring.place s).slot = .empty

end Pool

/-- A turn of a handler fills no place. -/
theorem Worker.Turn.slot_eq_empty {i s : Nat} {closed : Bool} {w w' : Worker} {ring ring' : Ring}
    {deeds : List Deed} {report : Option Report}
    (h : w.Turn i closed ring deeds w' ring' report) (hs : (ring.place s).slot = .empty) :
    (ring'.place s).slot = .empty := by
  cases h with
  | claim t ht =>
      rw [Ring.place_claim]
      split
      · rfl
      · exact hs
  | release t slot ht =>
      rw [Ring.place_release]
      split <;> exact hs
  | _ => exact hs

namespace Pool

theorem Unused.move {p q : Pool} {deeds : Trail} (h : p.Unused) (hm : p.Move deeds q) :
    q.Unused := by
  cases hm with
  | come slot =>
      obtain ⟨waiting, results, heq, -⟩ := p.publish_eq slot
      rw [heq]
      exact h
  | write ticket slot ring hh hr =>
      intro s hs hlt
      have hcapacity := Ring.capacity_write? hr
      have hs : p.next + 1 ≤ s := hs
      have hlt : s < p.ring.capacity := hcapacity ▸ hlt
      have hmod : p.next % p.ring.capacity ≠ s % p.ring.capacity := by
        rw [Nat.mod_eq_of_lt hlt, Nat.mod_eq_of_lt (by omega)]
        omega
      rw [Ring.place_write? hr, if_neg hmod]
      exact h s (by omega) hlt
  | giveUp ticket t told w hh hw hg =>
      intro s hs hlt
      have hempty := h s hs (by simpa [finish] using hlt)
      simp only [finish, Ring.place_abandon]
      split
      · split
        · rfl
        · exact hempty
      · exact hempty
  | turn i w _ w' ring report reports hw ht hr =>
      intro s hs hlt
      exact ht.slot_eq_empty (h s hs (ht.capacity_eq ▸ hlt))
  | _ => exact h

/-- Every place that was written has a sequence that was written there last. -/
theorem exists_current {p : Pool} {s : Nat} (hs : s < p.next) :
    ∃ t, p.Current t ∧ s % p.ring.capacity = t % p.ring.capacity := by
  have hpos : 0 < p.ring.capacity := p.ring.size_pos
  -- the last sequence before the next one that is a whole number of rounds after this one
  have hlt := Nat.mod_lt (p.next - 1 - s) hpos
  have hdiv := Nat.div_add_mod (p.next - 1 - s) p.ring.capacity
  refine ⟨s + p.ring.capacity * ((p.next - 1 - s) / p.ring.capacity), ⟨?_, ?_⟩, ?_⟩
  · omega
  · omega
  · rw [Nat.add_mul_mod_self_left]

/-- Once a pool has drained, the places of deliveries are empty. -/
theorem Sound.empty_of_drained {n s : Nat} {p : Pool} {past : Trail} (h : p.Sound n past)
    (hn : 0 < n) (hstop : ∀ i, .stopped i ∉ past) (hd : p.Drained) (hs : p.Current s)
    (hall : ∀ event ∈ past.events, event.delivery.isSome) : (p.ring.place s).slot = .empty := by
  have hlt : s < past.events.length := h.positioned.written ▸ hs.1
  have hevent : past.events[s]? = some past.events[s] := List.getElem?_eq_getElem hlt
  obtain ⟨d, hdelivery⟩ := Option.isSome_iff_exists.mp (hall _ (List.getElem_mem hlt))
  have howner := d.subscription.channel.shard_lt_of_pos hn
  refine (h.slot_eq_of_current (h.staffed.not_gaveUp hstop) hn hs hevent hdelivery).2 ?_
  rw [h.positioned.numbered.claimed_iff, h.reached_of_drained hstop hd howner]
  exact hs.1

end Pool

/-! ## Adding up -/

namespace Tally

/-- All counters. -/
def counters : List (Tally → UInt64) :=
  [seen, owned, delivered, rollbacks, requeued, deadLettered, dropped, unhandled]

/-- Tallies are added up counter by counter. -/
theorem sum_counter {get : Tally → UInt64} (h : get ∈ counters) (tallies : List Tally) :
    get (total tallies) = (tallies.map get).sum := by
  obtain ⟨hzero, hadd⟩ : get 0 = 0 ∧ ∀ t u : Tally, get (t + u) = get t + get u := by
    simp only [counters, List.mem_cons, List.not_mem_nil, or_false] at h
    rcases h with rfl | rfl | rfl | rfl | rfl | rfl | rfl | rfl <;> exact ⟨rfl, fun _ _ => rfl⟩
  rw [total_eq_sum]
  induction tallies with
  | nil => exact hzero
  | cons t tallies ih => rw [List.sum_cons, hadd, ih, List.map_cons, List.sum_cons]

theorem toNat_sum {xs : List UInt64} (h : (xs.map UInt64.toNat).sum < 2 ^ 64) :
    xs.sum.toNat = (xs.map UInt64.toNat).sum := by
  induction xs with
  | nil => rfl
  | cons x xs ih =>
      rw [List.map_cons, List.sum_cons] at h
      rw [List.sum_cons, UInt64.toNat_add, ih (by omega), List.map_cons, List.sum_cons,
        Nat.mod_eq_of_lt h]

/-- As numbers, too, unless they wrap. -/
theorem toNat_counter {get : Tally → UInt64} (h : get ∈ counters) {tallies : List Tally}
    (hlt : (tallies.map fun t => (get t).toNat).sum < 2 ^ 64) :
    (get (total tallies)).toNat = (tallies.map fun t => (get t).toNat).sum := by
  have hmap : tallies.map (fun t => (get t).toNat) = (tallies.map get).map UInt64.toNat := by
    rw [List.map_map]
    rfl
  rw [hmap] at hlt ⊢
  rw [sum_counter h, toNat_sum hlt]

end Tally

/-- What a pool that was opened so has to show for a run at the end. Counters wrap. -/
structure Floor.AddsUp (f : Floor σ) (config : Config) (scene : Scene σ) (past : Trail) :
    Prop where
  /-- Whatever was published was accepted, and is the event of some publisher. -/
  published : f.pool.sequences = List.range past.events.length
  came : ∀ ticket s, (ticket, .ok s) ∈ f.pool.results →
    ∃ slot, .came ticket slot ∈ past ∧ past.events[s]? = some slot
  /-- Every handler has seen every event. -/
  seen : ∀ t ∈ f.pool.tallies, t.seen = UInt64.ofNat f.pool.sequences.length
  /-- Every delivery was owned once, and reported once. -/
  owned : f.pool.tally.owned = UInt64.ofNat (past.events.countP (·.delivery.isSome))
  reported : f.pool.reports.length = past.events.countP (·.delivery.isSome)
  /-- Every outcome was counted as it was reported. -/
  outcomes : ∀ kind,
    f.pool.tally.counter kind = UInt64.ofNat (f.pool.reports.countP (·.outcome.kind = kind))
  /-- The counters of the pool are those of its handlers added up, as numbers unless they wrap. -/
  summed : ∀ get ∈ Tally.counters, get f.pool.tally = (f.pool.tallies.map get).sum ∧
    ((f.pool.tallies.map fun t => (get t).toNat).sum < 2 ^ 64 →
      (get f.pool.tally).toNat = (f.pool.tallies.map fun t => (get t).toNat).sum)
  /-- It does not matter in which order. -/
  unordered : ∀ tallies, tallies.Perm f.pool.tallies → Tally.total tallies = f.pool.tally
  /-- Messages were moved to the dead letter queue of the pool and to no other. -/
  moved : ∃ calls, f.scene.calls = scene.calls ++ calls ∧ ∀ c ∈ calls, c.MovesTo config.queue
  /-- If every event held a delivery, nothing is left in the ring. -/
  emptied : (∀ event ∈ past.events, event.delivery.isSome) → ∀ s, f.pool.ring.isEmptyAt s

namespace Run

variable {rely : Site σ → Site σ → Prop} {config : Config} {reporting : Bool} {scene : Scene σ}
  {past : Trail} {f : Floor σ}

theorem accounted (h : Run e rely (.opening config reporting scene) past f) :
    f.pool.Accounted config.handlers.toNat past := by
  induction h with
  | start => exact .new config reporting
  | act hrun hact ih => exact ih.act hrun.sound.staffed hact
  | meanwhile hrun hrely ih => exact ih

theorem balanced (h : Run e rely (.opening config reporting scene) past f)
    (hstop : ∀ i, .stopped i ∉ past) : f.pool.Balanced config.handlers.toNat past := by
  induction h with
  | start => exact .new config reporting
  | act hrun hact ih =>
      exact (ih fun i hi => hstop i (List.mem_append_left _ hi)).act hrun.sound.staffed hact
        fun i hi => hstop i (List.mem_append_right _ hi)
  | meanwhile hrun hrely ih => exact ih hstop

theorem addressed (h : Run e rely (.opening config reporting scene) past f) :
    f.pool.Addressed past := by
  induction h with
  | start => exact .new config reporting
  | act hrun hact ih => exact ih.act hrun.sound.staffed hact
  | meanwhile hrun hrely ih => exact ih

theorem unused (h : Run e rely (.opening config reporting scene) past f) : f.pool.Unused := by
  refine h.invariant (I := fun p _ => p.Unused) ?_ fun _ _ _ _ hp hm => hp.move hm
  intro s hs hlt
  simp [Floor.opening, Pool.new, Ring.new, Ring.place]

/-- Nobody is under way any more, so whatever was written was accepted. -/
theorem length_sequences (h : Run e rely (.opening config reporting scene) past f)
    (hstop : ∀ i, .stopped i ∉ past) (hd : f.pool.Drained) :
    f.pool.sequences.length = past.events.length := by
  have hnone : f.pool.announcement = none := by
    simp [Pool.announcement, (h.sound.staffed.shut hd.1).1]
  rw [h.counted.eq_due (h.sound.staffed.not_gaveUp hstop), Pool.due, hnone,
    h.sound.positioned.written]
  rfl

/-- Nobody is busy any more, so whatever was begun was reported as it was counted. -/
theorem reports_balance (h : Run e rely (.opening config reporting scene) past f)
    (hstop : ∀ i, .stopped i ∉ past) (hd : f.pool.Drained) :
    past.owned config.handlers.toNat = past.reports.length ∧
      ∀ kind, past.counted kind = past.reportedAs kind := by
  have hended : ∀ w ∈ f.pool.workers, w.stage = .ended :=
    fun w hw => Worker.isGone_iff.mp (hd.2 w hw)
  have hbalanced := h.balanced hstop
  constructor
  · rw [hbalanced.owned, List.countP_eq_zero.mpr fun w hw => by
      simp [hended w hw, Stage.isBusy, Stage.busy?], Nat.add_zero]
  · intro kind
    rw [hbalanced.counted, List.countP_eq_zero.mpr fun w hw => by
      simp [hended w hw, Stage.hasCounted], Nat.add_zero]

/-- Whether a place was written or not, it is empty. -/
theorem isEmptyAt (h : Run e rely (.opening config reporting scene) past f)
    (hstop : ∀ i, .stopped i ∉ past) (hd : f.pool.Drained)
    (hall : ∀ event ∈ past.events, event.delivery.isSome) (s : Nat) :
    f.pool.ring.isEmptyAt s := by
  rw [Ring.isEmptyAt, Slot.isEmpty_iff, f.pool.ring.place_congr (s.mod_mod _).symm]
  have hlt : s % f.pool.ring.capacity < f.pool.ring.capacity := Nat.mod_lt s f.pool.ring.size_pos
  rcases Nat.lt_or_ge (s % f.pool.ring.capacity) f.pool.next with hs | hs
  · obtain ⟨t, ht, hmod⟩ := Pool.exists_current hs
    rw [f.pool.ring.place_congr hmod]
    exact h.sound.empty_of_drained config.handlers_pos hstop hd ht hall
  · exact h.unused _ hs hlt

/-- When a pool has drained and no handler was stopped, everything adds up. -/
theorem adds_up (h : Run e rely (.opening config true scene) past f)
    (hstop : ∀ i, .stopped i ∉ past) (hd : f.pool.Drained) : f.AddsUp config scene past := by
  have hn : 0 < config.handlers.toNat := config.handlers_pos
  have hsound := h.sound
  have haccounted := h.accounted
  have htickets := h.ticketed
  have hlength := h.length_sequences hstop hd
  obtain ⟨howned, hcounted⟩ := h.reports_balance hstop hd
  have hreports : f.pool.reports = past.reports.map Prod.snd := h.reports_eq
  have hdeliveries := hsound.owned_of_drained hn hstop hd
  exact {
    published := hlength ▸ h.counted.range
    came := by
      intro ticket s hok
      obtain ⟨slot, hwrote⟩ := htickets.result ticket s hok
      exact ⟨slot, htickets.wrote ticket s slot hwrote⟩
    seen := by
      intro t ht
      obtain ⟨i, hi⟩ := List.mem_iff_getElem?.mp ht
      obtain ⟨hlt, -⟩ := List.getElem?_eq_some_iff.mp hi
      rw [Pool.tallies, List.length_map, hsound.staffed.size] at hlt
      rw [haccounted.seen i t hi, hsound.reached_of_drained hstop hd hlt, hlength,
        hsound.positioned.written]
    owned := by
      have htally := congrArg Tally.owned haccounted.tally
      rw [Trail.owned_earned, hdeliveries] at htally
      exact htally
    reported := by
      rw [hreports, List.length_map, ← howned, hdeliveries]
    outcomes := by
      intro kind
      have htally := congrArg (Tally.counter · kind) haccounted.tally
      simp only [Trail.counter_earned, hcounted] at htally
      rw [hreports, List.countP_map]
      cases kind <;> exact htally
    summed := fun get hget => ⟨Tally.sum_counter hget f.pool.tallies, Tally.toNat_counter hget⟩
    unordered := by
      intro tallies hperm
      rw [Tally.total_eq_sum, hperm.sum_eq, ← Pool.tally_eq_sum]
    moved := ⟨_, h.calls_eq, h.config_eq ▸ h.addressed.calls⟩
    emptied := h.isEmptyAt hstop hd }

/-- Of four deliveries one is requeued and one moved to the dead letters, and the books of both
sides agree on all of them. -/
theorem adds_up_rehearsal : ∃ past f,
    Run (Scripted.environment false) (fun _ _ => False) Rehearsal.opening past f ∧
      f.pool.tallies = [
        { seen := 4, owned := 2, delivered := 1, rollbacks := 1, deadLettered := 1 },
        { seen := 4, owned := 2, delivered := 1, rollbacks := 1, requeued := 1 }] ∧
      f.AddsUp (.normalize 2 2 "dead") Rehearsal.opening.scene past := by
  obtain ⟨past, f, hrun, hstaffed, hdrained, htallies⟩ := Rehearsal.exists_run
    Rehearsal.opening Rehearsal.relay
    (P := fun past f => past.staffed ∧ f.pool.Drained ∧ f.pool.tallies = [
      { seen := 4, owned := 2, delivered := 1, rollbacks := 1, deadLettered := 1 },
      { seen := 4, owned := 2, delivered := 1, rollbacks := 1, requeued := 1 }])
    (by decide +kernel)
  exact ⟨past, f, hrun, htallies, adds_up hrun (Trail.not_stopped hstaffed) hdrained⟩

end Run

namespace Rehearsal

/-- A pool of one handler, which does not survive a subscription that was sent to. -/
def brittle : Floor Scripted.Cast :=
  .opening (.normalize 1 1 "dead") true
    { books := {}, outside := { parts := ⟨[(delivery.subscription, { fragile := true })]⟩ } }

/-- An event is published, sent and counted. -/
def toRecord : List Action :=
  [.publish (.holding delivery false), .acquire 0] ++ List.replicate 3 .proceed ++
    List.replicate 10 (.advance 0)

end Rehearsal

/-- A handler that ends as it lets go of a delivery has counted the outcome and never reports it,
although every publisher was told a sequence and the pool has drained. -/
theorem Run.exists_report_lost : ∃ before g after f,
    Run (Scripted.environment false) (fun _ _ => False) Rehearsal.brittle before g ∧
      g.urge Scripted.fatal 0 = .stop 0 ∧
      Run (Scripted.environment false) (fun _ _ => False) g after f ∧
      (∀ i s, .gaveUp i s ∉ before ++ after) ∧ f.pool.Drained ∧ f.pool.results = [(0, .ok 0)] ∧
      f.pool.tally.owned = 1 ∧ f.pool.reports = [] ∧
        ¬ f.AddsUp (.normalize 1 1 "dead") Rehearsal.brittle.scene (before ++ after) := by
  have hend : (Rehearsal.brittle.replay (Scripted.environment false) Rehearsal.toRecord).any
      (fun (before, g) => g.urge Scripted.fatal 0 = .stop 0 ∧
        (g.replay (Scripted.environment false) [.stop 0, .close]).any (fun (after, f) =>
          (before ++ after).all (fun | .gaveUp _ _ => false | _ => true) ∧ f.pool.Drained ∧
            f.pool.results = [(0, .ok 0)] ∧ f.pool.tally.owned = 1 ∧ f.pool.reports = [] ∧
              (Trail.events (before ++ after)).countP (·.delivery.isSome) = 1)) := by
    decide +kernel
  obtain ⟨⟨before, g⟩, hg, hlater⟩ := (Option.any_eq_true _ _).mp hend
  obtain ⟨hurge, hlater⟩ := of_decide_eq_true hlater
  obtain ⟨⟨after, f⟩, hf, hfacts⟩ := (Option.any_eq_true _ _).mp hlater
  obtain ⟨hgave, hdrained, hresults, howned, hreports, hevents⟩ := of_decide_eq_true hfacts
  refine ⟨before, g, after, f, .of_replay _ hg, hurge, .of_replay _ hf, fun i s hi => ?_,
    hdrained, hresults, howned, hreports, fun hadds => ?_⟩
  · simpa using List.all_eq_true.mp hgave _ hi
  · have hreported : ([] : List Report).length = 1 := hreports ▸ hevents ▸ hadds.reported
    exact Nat.zero_ne_one hreported

end ShardedDelivery
