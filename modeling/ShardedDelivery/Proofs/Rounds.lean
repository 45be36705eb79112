import Mathlib.Data.List.Nodup
import ShardedDelivery.Proofs.Plan.Increments
import ShardedDelivery.Proofs.Solo

/-! # Rounds

A slot goes round all handlers that share the channels. Whatever the order, one of them finds the
delivery its own and takes it out; those before it and those after it only see the slot. -/

namespace ShardedDelivery

variable {σ : Type}

/-- A handler, with its callees and what it is told of the slot that it is shown. -/
structure Post (σ : Type) where
  handler : Handler
  callees : Environment σ
  sequence : Nat
  last : Bool

/-- Shows the handler a slot. -/
def Post.turn (p : Post σ) (slot : Slot) (s : Scene σ) : Turn σ :=
  p.handler.handle p.callees slot p.sequence p.last s

/-- The turns of handlers that a slot goes round, and what is left of it. -/
structure Round (σ : Type) where
  turns : List (Turn σ)
  slot : Slot
  scene : Scene σ

/-- Shows handlers a slot one after another, each what the one before has left of it. -/
def round : List (Post σ) → Slot → Scene σ → Round σ
  | [], slot, s => ⟨[], slot, s⟩
  | p :: posts, slot, s =>
      let turn := p.turn slot s
      let rest := round posts turn.slot turn.scene
      { rest with turns := turn :: rest.turns }

/-- The turn of a handler that a slot comes to after others. -/
def Post.turnAfter (p : Post σ) (before : List (Post σ)) (slot : Slot) (s : Scene σ) : Turn σ :=
  p.turn (round before slot s).slot (round before slot s).scene

/-- Each of `n` handlers has a post, and no other; no handlers at all count as one. -/
structure Staffed (n : Nat) (posts : List (Post σ)) : Prop where
  counts : ∀ p ∈ posts, p.handler.count = max n 1
  ordinals : (posts.map (·.handler.ordinal)).Perm (List.range (max n 1))

namespace Round

/-- What is reported in a round. -/
def reports (r : Round σ) : List Report := r.turns.filterMap (·.result.report?)

/-- Handlers have passed on a slot: each has counted an event seen, and all that was noted is which
events end a batch. -/
structure Passes (r : Round σ) (posts : List (Post σ)) (slot : Slot) (s : Scene σ) : Prop where
  turns : List.Forall₂ (fun p turn =>
    turn.handler = { p.handler with tally := p.handler.tally.countSeen } ∧ turn.slot = slot ∧
      turn.scene.toSite = s.toSite ∧ turn.result = .foreign) posts r.turns
  slot : r.slot = slot
  site : r.scene.toSite = s.toSite
  journal : r.scene.journal =
    s.journal ++ posts.flatMap fun p => p.handler.batchEnd p.sequence p.last

/-- In a round, a handler has taken the delivery out. The handlers before it have passed on the
slot, and those after it on an empty one. -/
structure Takes (r : Round σ) (before : List (Post σ)) (owner : Post σ) (after : List (Post σ))
    (slot : Slot) (s : Scene σ) : Prop where
  passed : (round before slot s).Passes before slot s
  taken : (owner.turnAfter before slot s).slot = .empty
  passedEmpty : (round after .empty (owner.turnAfter before slot s).scene).Passes after .empty
    (owner.turnAfter before slot s).scene
  turns : r.turns = (round before slot s).turns ++ owner.turnAfter before slot s ::
    (round after .empty (owner.turnAfter before slot s).scene).turns
  /-- What is left is what the owner has left. -/
  site : r.scene.toSite = (owner.turnAfter before slot s).scene.toSite
  emptied : r.slot = .empty

/-- The delivery was taken out by the handler that its channel falls to, which alone has reported it
to have come to this outcome. -/
structure Serves (r : Round σ) (n : Nat) (before : List (Post σ)) (owner : Post σ)
    (after : List (Post σ)) (slot : Slot) (d : Delivery) (s : Scene σ) (outcome : Outcome) :
    Prop extends r.Takes before owner after slot s where
  ordinal : owner.handler.ordinal = d.subscription.channel.fold.toInt.natAbs % max n 1
  report : (owner.turnAfter before slot s).result =
    .reported ⟨d.message.id, d.subscription.channel, outcome⟩
  reports : r.reports = [⟨d.message.id, d.subscription.channel, outcome⟩]

/-- Two rounds that nobody can tell apart afterwards, but for the order of the handlers. -/
structure Matches (r r' : Round σ) : Prop where
  slot : r.slot = r'.slot
  /-- The books, the store of an engine, and whatever else callees keep. -/
  site : r.scene.toSite = r'.scene.toSite
  reports : r.reports = r'.reports
  /-- Every handler, with its counters. -/
  handlers : (r.turns.map (·.handler)).Perm (r'.turns.map (·.handler))

end Round

section Turns

variable {posts before after : List (Post σ)} {p : Post σ} {slot : Slot} {s y : Scene σ}

theorem round_append (before after : List (Post σ)) (slot : Slot) (s : Scene σ) :
    round (before ++ after) slot s =
      let first := round before slot s
      let rest := round after first.slot first.scene
      { rest with turns := first.turns ++ rest.turns } := by
  induction before generalizing slot s with
  | nil => rfl
  | cons p before ih =>
      rw [List.cons_append, round, ih]
      rfl

/-- Handlers that do not own a slot pass on it. -/
theorem round_of_foreign (h : ∀ p ∈ posts, p.handler.claim? slot = none) (s : Scene σ) :
    (round posts slot s).Passes posts slot s := by
  induction posts generalizing s with
  | nil => exact ⟨.nil, rfl, rfl, by simp [round]⟩
  | cons p posts ih =>
      have hturn : p.turn slot s = _ := Handler.handle_of_foreign
        (h p List.mem_cons_self) p.sequence p.last
      obtain ⟨hturns, hslot, hsite, hjournal⟩ := ih
        (fun q hq => h q (List.mem_cons_of_mem p hq)) (p.handler.see p.sequence p.last s).2
      rw [Handler.toSite_see] at hturns hsite
      rw [Handler.journal_see_eq] at hjournal
      simp only [round, hturn]
      refine ⟨.cons ⟨rfl, rfl, Handler.toSite_see .., rfl⟩ hturns, hslot, hsite, ?_⟩
      rw [hjournal, List.flatMap_cons, List.append_assoc]

/-- Nothing is reported of a slot that is passed on. -/
theorem Round.Passes.reports {r : Round σ} (h : r.Passes posts slot s) : r.reports = [] := by
  rcases r with ⟨turns, slot', s'⟩
  obtain ⟨hturns, -, -, -⟩ := h
  simp only [Round.reports] at hturns ⊢
  induction hturns with
  | nil => rfl
  | cons hturn _ ih => rw [List.filterMap_cons, hturn.2.2.2, ih]; rfl

theorem Round.Passes.handlers {r : Round σ} (h : r.Passes posts slot s) :
    r.turns.map (·.handler) =
      posts.map fun p => { p.handler with tally := p.handler.tally.countSeen } := by
  rcases r with ⟨turns, slot', s'⟩
  obtain ⟨hturns, -, -, -⟩ := h
  simp only at hturns ⊢
  induction hturns with
  | nil => rfl
  | cons hturn _ ih => rw [List.map_cons, List.map_cons, hturn.1, ih]

/-- After handlers that have passed on a slot, a handler takes the turn that it takes without
them. -/
theorem Round.Passes.turnAfter_eq (h : (round before slot s).Passes before slot s) (p : Post σ) :
    (p.turnAfter before slot s).handler = (p.turn slot s).handler ∧
      (p.turnAfter before slot s).slot = (p.turn slot s).slot ∧
      (p.turnAfter before slot s).scene.toSite = (p.turn slot s).scene.toSite ∧
      (p.turnAfter before slot s).result = (p.turn slot s).result := by
  rw [Post.turnAfter, h.slot]
  exact p.handler.handle_congr p.callees slot p.sequence p.last _ s h.site

end Turns

/-! ## The owner -/

section Owner

variable {n : Nat} {posts posts' before after : List (Post σ)} {p owner : Post σ} {slot : Slot}
  {d : Delivery} {s : Scene σ} {outcome : Outcome}

namespace Staffed

theorem perm (h : Staffed n posts) (hperm : posts'.Perm posts) : Staffed n posts' where
  counts p hp := h.counts p (hperm.mem_iff.mp hp)
  ordinals := (hperm.map _).trans h.ordinals

theorem nodup (h : Staffed n posts) : (posts.map (·.handler.ordinal)).Nodup :=
  h.ordinals.nodup_iff.mpr List.nodup_range

/-- A handler serves the channels that fall to its ordinal. -/
theorem serves_iff (h : Staffed n posts) (hp : p ∈ posts) (d : Delivery) :
    p.handler.serves d = true ↔
      p.handler.ordinal = d.subscription.channel.fold.toInt.natAbs % max n 1 := by
  have hmax : max (max n 1) 1 = max n 1 := by omega
  rw [Handler.serves, h.counts p hp, ChannelId.shard, shard, hmax, decide_eq_true_iff, eq_comm]

/-- A delivery falls to one handler, and to no other. -/
theorem exists_owner (h : Staffed n posts) (d : Delivery) :
    ∃ before owner after, posts = before ++ owner :: after ∧ owner.handler.serves d = true ∧
      ∀ p ∈ before ++ after, p.handler.serves d = false := by
  have hlt : d.subscription.channel.fold.toInt.natAbs % max n 1 < max n 1 :=
    Nat.mod_lt _ (by omega)
  obtain ⟨owner, howner, hordinal⟩ :=
    List.mem_map.mp (h.ordinals.mem_iff.mpr (List.mem_range.mpr hlt))
  obtain ⟨before, after, rfl⟩ := List.append_of_mem howner
  refine ⟨before, owner, after, rfl, (h.serves_iff howner d).mpr hordinal, fun p hp => ?_⟩
  have hmem : p ∈ before ++ owner :: after := by
    rcases List.mem_append.mp hp with hp | hp <;> simp [hp]
  rw [← Bool.not_eq_true, h.serves_iff hmem, ← hordinal]
  have hnodup := h.nodup
  rw [(List.perm_middle.map _).nodup_iff, List.map_cons, List.nodup_cons] at hnodup
  exact fun heq => hnodup.1 (heq ▸ List.mem_map_of_mem hp)

end Staffed

/-- A slot goes round with one handler among others that serves its delivery. -/
theorem takes_of_owner (hslot : slot.delivery = some d) (howner : owner.handler.serves d = true)
    (hothers : ∀ p ∈ before ++ after, p.handler.serves d = false) (s : Scene σ) :
    (round (before ++ owner :: after) slot s).Takes before owner after slot s := by
  have hclaim : owner.handler.claim? slot = some d := Handler.claim?_eq_some_iff.mpr ⟨hslot, howner⟩
  have hpassed : (round before slot s).Passes before slot s := by
    refine round_of_foreign (fun p hp => ?_) s
    rw [Handler.claim?, hslot, Option.filter_some, hothers p (List.mem_append_left _ hp)]
    rfl
  have htaken : (owner.turnAfter before slot s).slot = .empty := by
    rw [(hpassed.turnAfter_eq owner).2.1, Post.turn, Handler.handle_of_claim hclaim]
    rcases owner.handler.course owner.callees d slot.failed owner.sequence owner.last s with
      ⟨_ | _ | _, t, y⟩ <;> rfl
  have hempty : (round after .empty (owner.turnAfter before slot s).scene).Passes after .empty
      (owner.turnAfter before slot s).scene :=
    round_of_foreign (fun p _ => rfl) _
  have hround : round (before ++ owner :: after) slot s =
      { round after .empty (owner.turnAfter before slot s).scene with
        turns := (round before slot s).turns ++ owner.turnAfter before slot s ::
          (round after .empty (owner.turnAfter before slot s).scene).turns } := by
    rw [← htaken, round_append]
    rfl
  rw [hround]
  exact ⟨hpassed, htaken, hempty, rfl, hempty.site, hempty.slot⟩

/-- Every handler ends as it would have ended if it alone had been shown the slot. -/
theorem Round.Takes.handlers (hslot : slot.delivery = some d)
    (hothers : ∀ p ∈ before ++ after, p.handler.serves d = false)
    (h : (round (before ++ owner :: after) slot s).Takes before owner after slot s) :
    (round (before ++ owner :: after) slot s).turns.map (·.handler) =
      (before ++ owner :: after).map fun p => (p.turn slot s).handler := by
  have hseen (p : Post σ) (hp : p ∈ before ++ after) :
      { p.handler with tally := p.handler.tally.countSeen } = (p.turn slot s).handler := by
    have hclaim : p.handler.claim? slot = none := by
      rw [Handler.claim?, hslot, Option.filter_some, hothers p hp]
      rfl
    rw [Post.turn, Handler.handle_of_foreign hclaim]
  rw [h.turns, List.map_append, List.map_cons, h.passed.handlers, h.passedEmpty.handlers,
    (h.passed.turnAfter_eq owner).1, List.map_append, List.map_cons]
  congr 1
  · exact List.map_congr_left fun p hp => hseen p (List.mem_append_left _ hp)
  · congr 1
    exact List.map_congr_left fun p hp => hseen p (List.mem_append_right _ hp)

/-- A delivery that was taken out and did not wait has been reported. -/
theorem Post.reported_of_ended (hclaim : p.handler.claim? slot = some d)
    (hend : (p.turn slot s).result ≠ .waiting) :
    ∃ outcome, (p.turn slot s).result =
      .reported ⟨d.message.id, d.subscription.channel, outcome⟩ := by
  rw [turn, Handler.handle_of_claim hclaim] at hend ⊢
  generalize p.handler.course p.callees d slot.failed p.sequence p.last s = course at hend ⊢
  rcases course with ⟨_ | _ | _, t, y⟩
  · exact ⟨_, rfl⟩
  · exact ⟨_, rfl⟩
  · exact (hend rfl).elim

namespace Staffed

theorem serves (h : Staffed n (before ++ owner :: after)) (hslot : slot.delivery = some d)
    (howner : owner.handler.serves d = true)
    (hothers : ∀ p ∈ before ++ after, p.handler.serves d = false)
    (hreport : (owner.turn slot s).result =
      .reported ⟨d.message.id, d.subscription.channel, outcome⟩) :
    (round (before ++ owner :: after) slot s).Serves n before owner after slot d s outcome := by
  have htakes := takes_of_owner hslot howner hothers s
  have hafter := (htakes.passed.turnAfter_eq owner).2.2.2.trans hreport
  refine ⟨htakes, (h.serves_iff (by simp) d).mp howner, hafter, ?_⟩
  have hbefore := htakes.passed.reports
  have hrest := htakes.passedEmpty.reports
  simp only [Round.reports] at hbefore hrest ⊢
  rw [htakes.turns, List.filterMap_append, List.filterMap_cons, hbefore, hrest, hafter]
  rfl

/-- A slot goes round all handlers, and each is done with it before the next. A delivery in it is
reported once, by the handler that its channel falls to, and all others pass on the slot. In any
other order of the handlers, the round comes to the same. -/
theorem one_owner (h : Staffed n posts) (slot : Slot) (s : Scene σ)
    (hends : ∀ turn ∈ (round posts slot s).turns, turn.result ≠ .waiting) :
    (∀ d, slot.delivery = some d → ∃ before owner after outcome,
      posts = before ++ owner :: after ∧
        (round posts slot s).Serves n before owner after slot d s outcome) ∧
      (slot.delivery = none →
        (round posts slot s).Passes posts slot s ∧ (round posts slot s).reports = []) ∧
      ∀ posts', posts'.Perm posts → (round posts' slot s).Matches (round posts slot s) := by
  cases hslot : slot.delivery with
  | none =>
      have hforeign (p : Post σ) : p.handler.claim? slot = none := by
        rw [Handler.claim?, hslot]
        rfl
      have hpasses (posts : List (Post σ)) : (round posts slot s).Passes posts slot s :=
        round_of_foreign (fun p _ => hforeign p) s
      refine ⟨by simp, fun _ => ⟨hpasses posts, (hpasses posts).reports⟩, fun posts' hperm => ?_⟩
      refine ⟨?_, ?_, ?_, ?_⟩
      · rw [(hpasses posts').slot, (hpasses posts).slot]
      · rw [(hpasses posts').site, (hpasses posts).site]
      · rw [(hpasses posts').reports, (hpasses posts).reports]
      · rw [(hpasses posts').handlers, (hpasses posts).handlers]
        exact hperm.map _
  | some d =>
      obtain ⟨before, owner, after, rfl, howner, hothers⟩ := h.exists_owner d
      have htakes := takes_of_owner hslot howner hothers s
      have hclaim := Handler.claim?_eq_some_iff.mpr ⟨hslot, howner⟩
      obtain ⟨outcome, hreport⟩ : ∃ outcome, (owner.turn slot s).result =
          .reported ⟨d.message.id, d.subscription.channel, outcome⟩ := by
        refine Post.reported_of_ended hclaim ?_
        rw [← (htakes.passed.turnAfter_eq owner).2.2.2]
        exact hends _ (by simp [htakes.turns])
      have hserves := h.serves hslot howner hothers hreport
      refine ⟨?_, by simp, fun posts' hperm => ?_⟩
      · rintro d' hd'
        obtain rfl := Option.some.inj hd'
        exact ⟨before, owner, after, outcome, rfl, hserves⟩
      · -- in the other order, the delivery falls to the same handler
        have h' := h.perm hperm
        obtain ⟨before', owner', after', rfl, howner', hothers'⟩ := h'.exists_owner d
        have hmem : owner' ∈ before ++ owner :: after := hperm.mem_iff.mp (by simp)
        obtain rfl : owner' = owner := by
          refine List.inj_on_of_nodup_map h.nodup hmem (by simp) ?_
          rw [(h.serves_iff hmem d).mp howner', (h.serves_iff (by simp) d).mp howner]
        have htakes' := takes_of_owner hslot howner' hothers' s
        have hserves' := h'.serves hslot howner' hothers' hreport
        refine ⟨?_, ?_, ?_, ?_⟩
        · rw [htakes'.emptied, htakes.emptied]
        · rw [htakes'.site, htakes.site, (htakes'.passed.turnAfter_eq owner').2.2.1,
            (htakes.passed.turnAfter_eq owner').2.2.1]
        · rw [hserves'.reports, hserves.reports]
        · rw [htakes'.handlers hslot hothers', htakes.handlers hslot hothers]
          exact hperm.map _

namespace Rehearsal

/-- One of three handlers, with scripted callees. -/
def post (ordinal : Nat) : Post Scripted.Cast :=
  ⟨.new ordinal 3 "dead", Scripted.environment true, 0, true⟩

/-- A delivery on a channel whose hash has the greatest absolute value that there is. -/
def extreme : Delivery :=
  ⟨⟨0, ⟨0x8000000000000000, 0⟩, true⟩, ⟨0, ⟨7⟩, "orders", .queue⟩, {}⟩

/-- Its subscriber cannot be reached. -/
def broken : Scene Scripted.Cast where
  books := ({} : Books).applyAll (Edit.inFlight extreme.message extreme.subscription)
  outside := { parts := ⟨[
    (extreme.subscription, { cues := [{ ending := .fails (.transient "gone") }] })]⟩ }

theorem staffed : Staffed 3 [post 1, post 2, post 0] where
  counts := by decide
  ordinals := by decide

end Rehearsal

/-- The second of three handlers that are asked is the owner. In the other order it is the first,
and the message is requeued once all the same. -/
theorem one_owner_rehearsal :
    let posts := [Rehearsal.post 1, Rehearsal.post 2, Rehearsal.post 0]
    let posts' := [Rehearsal.post 2, Rehearsal.post 0, Rehearsal.post 1]
    let slot := Slot.holding Rehearsal.extreme false
    let r := round posts slot Rehearsal.broken
    Rehearsal.extreme.subscription.channel.fold.toInt = -2147483648 ∧
      r.reports = [⟨⟨7⟩, ⟨0x8000000000000000, 0⟩, .requeued⟩] ∧
      (∃ before owner after outcome, posts = before ++ owner :: after ∧
        r.Serves 3 before owner after slot Rehearsal.extreme Rehearsal.broken outcome) ∧
      (round posts' slot Rehearsal.broken).Matches r := by
  intro posts posts' slot r
  have hends : ∀ turn ∈ r.turns, turn.result ≠ .waiting := by decide +kernel
  obtain ⟨hserves, -, hmatches⟩ := one_owner Rehearsal.staffed slot Rehearsal.broken hends
  refine ⟨by decide +kernel, by decide +kernel, hserves _ rfl, hmatches posts' ?_⟩
  exact @List.perm_append_comm _ [Rehearsal.post 2, Rehearsal.post 0] [Rehearsal.post 1]

end Staffed

end Owner

end ShardedDelivery
