import ShardedDelivery.Proofs.Pool.Shares
import ShardedDelivery.Proofs.Solo

/-! # A pool and a handler on its own

A pool is set beside a handler that serves all channels by itself and is shown the same events. Each
handler of the pool is always as far with its own channels as the other one was at some moment. -/

namespace ShardedDelivery

/-! ## Effects on the trail -/

/-- What the outside gets by a deed. -/
def Deed.effect? : Deed → Option Effect
  | .called _ s d c => some (.call s d.subscription.channel c)
  | .reported _ s report => some (.report s report)
  | _ => none

/-- Whether the channel of an effect falls to handler `i` of `n`. -/
def Effect.fallsTo (n i : Nat) (x : Effect) : Bool := x.channel.shard n = i

namespace Trail

/-- What the outside gets in a run. -/
def effects (past : Trail) : List Effect := past.filterMap Deed.effect?

theorem calls_eq_effects (past : Trail) :
    past.calls.map Prod.snd = past.effects.filterMap Effect.call? := by
  rw [calls, effects, List.map_filterMap, List.filterMap_filterMap]
  refine List.filterMap_congr fun x _ => ?_
  cases x <;> rfl

theorem reports_eq_effects (past : Trail) :
    past.reports.map Prod.snd = past.effects.filterMap Effect.report? := by
  rw [reports, effects, List.map_filterMap, List.filterMap_filterMap]
  refine List.filterMap_congr fun x _ => ?_
  cases x <;> rfl

/-- What the outside gets in a run for the channels that fall to handler `i` of `n`. -/
def effectsOf (n i : Nat) (past : Trail) : List Effect := past.effects.filter (·.fallsTo n i)

theorem effectsOf_append (n i : Nat) (past deeds : Trail) :
    effectsOf n i (past ++ deeds) = effectsOf n i past ++ effectsOf n i deeds := by
  simp [effectsOf, effects]

theorem effectsOf_calls (n i j s : Nat) (d : Delivery) (calls : List Call)
    (hi : d.subscription.channel.shard n = i) :
    effectsOf n i (calls.map (.called j s d)) =
      calls.map (.call s d.subscription.channel) := by
  simp [effectsOf, effects, List.filterMap_map, Function.comp_def, Deed.effect?, Effect.fallsTo,
    Effect.channel, hi]

@[simp] theorem effectsOf_recording (n i j : Nat) (stage : Stage) :
    effectsOf n i (stage.recording j) = [] := by
  cases stage <;> rfl

end Trail

/-! ## The comparison -/

/-- The callees of a pool beside those of a handler on its own, which are asked for the same events
and behave alike. -/
structure Comparison (σ σ' τ : Type) where
  pool : Callees σ τ
  solo : Callees σ' τ
  behaviour : Behaviour τ
  home : Message → ChannelId
  queue : String
  scene : Scene σ'
  last : Nat → Bool
  events : List Slot
  follows : pool.Follows behaviour
  soloFollows : solo.Follows behaviour
  prompt : solo.Prompt
  calm : solo.calm scene.outside
  homes : ∀ slot ∈ events, ∀ d, slot.delivery = some d → home d.message = d.subscription.channel

namespace Comparison

variable {σ σ' τ : Type} (c : Comparison σ σ' τ)

/-- The handler on its own after `k` events. -/
def after (k : Nat) : Solo σ' :=
  (Solo.alone c.queue c.scene).handleAll c.solo.env c.last (c.events.take k)

theorem after_zero : c.after 0 = Solo.alone c.queue c.scene := by
  simp [after, Solo.handleAll]

theorem after_succ {s : Nat} {slot : Slot} (h : c.events[s]? = some slot) :
    c.after (s + 1) = (c.after s).handle c.solo.env c.last slot := by
  simp [after, Solo.handleAll, List.take_add_one, h]

theorem after_spec (k : Nat) :
    (c.after k).handler.role = (0, 1, c.queue) ∧ c.solo.calm (c.after k).scene.outside ∧
      (k ≤ c.events.length → (c.after k).sequence = k) := by
  induction k with
  | zero =>
      rw [after_zero]
      exact ⟨rfl, c.calm, fun _ => rfl⟩
  | succ k ih =>
      obtain ⟨hrole, hcalm, hsequence⟩ := ih
      cases h : c.events[k]? with
      | none =>
          have heq : c.after (k + 1) = c.after k := by simp [after, List.take_add_one, h]
          rw [heq]
          refine ⟨hrole, hcalm, fun hle => ?_⟩
          have hlt := List.getElem?_eq_none_iff.mp h
          omega
      | some slot =>
          rw [c.after_succ h, Solo.role_handle]
          refine ⟨hrole, Solo.calm_handle c.soloFollows c.prompt hrole hcalm, fun hle => ?_⟩
          simp only [Solo.handle, hsequence (by omega)]

/-- What an event costs, apart from being seen. -/
def cost (s : Nat) : Tally :=
  (c.after (s + 1)).handler.tally.work - (c.after s).handler.tally.work

/-- What those of the first `k` events cost that fall to handler `i` of `n`. -/
def share (n i k : Nat) : Tally :=
  ∑ s ∈ Finset.range k, if c.events[s]?.any (Slot.fallsTo n i) then c.cost s else 0

theorem share_succ (n i k : Nat) :
    c.share n i (k + 1) =
      c.share n i k + if c.events[k]?.any (Slot.fallsTo n i) then c.cost k else 0 :=
  Finset.sum_range_succ _ _

/-- What the outside gets of the first `k` events for the channels that fall to handler `i` of
`n`. -/
def effectsOf (n i k : Nat) : List Effect := (c.after k).effects.filter (·.fallsTo n i)

/-- An event that falls to somebody else makes no difference to the channels of a handler. -/
theorem after_foreign {n i s : Nat} {slot : Slot} (h : c.events[s]? = some slot)
    (hf : ¬ slot.fallsTo n i) :
    c.solo.Agree c.solo c.home (·.shard n = i) none (c.after s).scene.toSite
        (c.after (s + 1)).scene.toSite ∧
      c.effectsOf n i (s + 1) = c.effectsOf n i s ∧ c.share n i (s + 1) = c.share n i s := by
  obtain ⟨hrole, hcalm, -⟩ := c.after_spec s
  have hother : ∀ d, slot.delivery = some d → d.subscription.channel.shard n ≠ i :=
    fun d hd hi => hf (Slot.fallsTo_iff.mpr ⟨d, hd, hi⟩)
  obtain ⟨more, hmore, hchannel, -⟩ :=
    Solo.effects_handle c.soloFollows c.prompt hrole hcalm c.last slot
  refine ⟨?_, ?_, ?_⟩
  · rw [c.after_succ h]
    refine (Solo.agree_handle c.soloFollows c.prompt hrole hcalm fun d hd => ?_).symm
    exact ⟨c.homes slot (List.mem_of_getElem? h) d hd, hother d hd⟩
  · have hnone : more.filter (·.fallsTo n i) = [] := by
      rw [List.filter_eq_nil_iff]
      intro y hy
      obtain ⟨d, hd, hy⟩ := hchannel y hy
      simpa [Effect.fallsTo, hy] using hother d hd
    rw [effectsOf, c.after_succ h, hmore, List.filter_append, hnone, List.append_nil, effectsOf]
  · rw [share_succ, h, Option.any_some, if_neg hf, add_zero]

/-! ## Handlers abreast -/

/-- Handler `i` of `n` is as far as the handler on its own is when its next event is number `k`, it
has counted `t` and its scene is `y`; `done` is what the outside got since the event began. -/
structure Abreast (n i k : Nat) (air : Option Delivery) (done : List Effect) (t : Tally)
    (y : Scene σ') (past : Trail) (w : Worker) (x : Scene σ) : Prop where
  agree : c.pool.Agree c.solo c.home (·.shard n = i) air x.toSite y.toSite
  tally : w.handler.tally.work + (c.after k).handler.tally.work = c.share n i k + t.work
  effects : past.effectsOf n i = c.effectsOf n i k ++ done

/-- Handler `i` of `n` is abreast in the middle of a delivery, with the same plan left to do. The
calls in `begun` have not ended in the pool, and are still to be made on the other side. -/
structure Amid (n i s : Nat) (d : Delivery) (air : Option Delivery) (begun : List Call)
    (plan : Plan) (slot : Slot) (t : Tally) (y : Scene σ') (calls : List Call) (past : Trail)
    (w : Worker) (x : Scene σ) : Prop
    extends c.Abreast n i s air ((calls ++ begun).map (.call s d.subscription.channel)) t y past w x
    where
  event : c.events[s]? = some slot
  delivery : slot.delivery = some d
  owner : d.subscription.channel.shard n = i
  calm : c.solo.calm y.outside
  calls : y.calls = (c.after s).scene.calls ++ calls
  run : plan.run c.solo.env t y = (c.after s).course c.solo.env c.last d slot.failed

/-- What a handler of the pool has done is what the handler on its own does. -/
inductive Tracks (n i : Nat) (past : Trail) (w : Worker) (x : Scene σ) : Prop where
  | rest (k) (hs : w.stage.busy? = none) (hk : past.reached i .done = k)
      (h : c.Abreast n i k none [] (c.after k).handler.tally (c.after k).scene past w x)
  | dispatching (s d plan k slot t y calls) (hs : w.stage = .dispatching s d plan)
      (hp : plan.Serves d k) (h : c.Amid n i s d none [] plan slot t y calls past w x)
  | waiting (s d mark rest k slot t y calls) (hs : w.stage = .waiting s d (.send d) mark rest)
      (hp : ∀ reply, (rest reply).Serves d k)
      (h : c.Amid n i s d (some d) [.send d] (.call (.send d) rest) slot t y calls past w x)
      (hw : c.pool.Resumes c.behaviour d mark (c.solo.view d y.toSite) x.toSite)
  | recorded (s d report) (calls : List Call) (hs : w.stage = .recorded s d report)
      (h : c.Abreast n i s none (calls.map (.call s d.subscription.channel))
        (c.after (s + 1)).handler.tally (c.after (s + 1)).scene past w x)
      (hshare : c.share n i (s + 1) = c.share n i s + c.cost s)
      (heffects : c.effectsOf n i (s + 1) = c.effectsOf n i s ++
        (calls.map (.call s d.subscription.channel) ++ [.report s report]))

section Frame

variable {c} {n i k s : Nat} {air : Option Delivery} {done : List Effect} {d : Delivery}
  {begun calls : List Call} {plan : Plan} {slot : Slot} {t : Tally} {y : Scene σ'}
  {past past' : Trail} {w w' : Worker} {x x' : Scene σ}

/-- What happens elsewhere changes nothing here. -/
theorem Abreast.frame (h : c.Abreast n i k air done t y past w x)
    (htally : w'.handler.tally.work = w.handler.tally.work)
    (heffects : past'.effectsOf n i = past.effectsOf n i)
    (hx : c.pool.Agree c.pool c.home (·.shard n = i) none x'.toSite x.toSite) :
    c.Abreast n i k air done t y past' w' x' where
  agree := (hx.weaken air).trans h.agree
  tally := by rw [htally, h.tally]
  effects := heffects.trans h.effects

theorem Amid.frame (h : c.Amid n i s d air begun plan slot t y calls past w x)
    (htally : w'.handler.tally.work = w.handler.tally.work)
    (heffects : past'.effectsOf n i = past.effectsOf n i)
    (hx : c.pool.Agree c.pool c.home (·.shard n = i) none x'.toSite x.toSite) :
    c.Amid n i s d air begun plan slot t y calls past' w' x' :=
  { h with toAbreast := h.toAbreast.frame htally heffects hx }

theorem Amid.home (h : c.Amid n i s d air begun plan slot t y calls past w x) :
    c.home d.message = d.subscription.channel :=
  c.homes slot (List.mem_of_getElem? h.event) d h.delivery

theorem Tracks.frame (h : c.Tracks n i past w x) (hstage : w'.stage = w.stage)
    (htally : w'.handler.tally.work = w.handler.tally.work)
    (hdone : past'.reached i .done = past.reached i .done)
    (heffects : past'.effectsOf n i = past.effectsOf n i)
    (hx : c.pool.Agree c.pool c.home (·.shard n = i) none x'.toSite x.toSite) :
    c.Tracks n i past' w' x' := by
  cases h with
  | rest k hs hk h => exact .rest k (hstage ▸ hs) (hdone.trans hk) (h.frame htally heffects hx)
  | dispatching s d plan k slot t y calls hs hp h =>
      exact .dispatching s d plan k slot t y calls (hstage.trans hs) hp (h.frame htally heffects hx)
  | waiting s d mark rest k slot t y calls hs hp h hw =>
      exact .waiting s d mark rest k slot t y calls (hstage.trans hs) hp
        (h.frame htally heffects hx) (hw.congr (hx.view_eq h.owner h.home))
  | recorded s d report calls hs h hshare he =>
      exact .recorded s d report calls (hstage.trans hs) (h.frame htally heffects hx) hshare he

/-- A handler that is not busy is abreast. -/
theorem Tracks.abreast (h : c.Tracks n i past w x) (hs : w.stage.busy? = none) :
    c.Abreast n i (past.reached i .done) none [] (c.after (past.reached i .done)).handler.tally
      (c.after (past.reached i .done)).scene past w x := by
  cases h with
  | rest k hs hk h => exact hk ▸ h
  | dispatching s d plan k slot t y calls hstage hp h => simp [hstage, Stage.busy?] at hs
  | waiting s d mark rest k slot t y calls hstage hp h hw => simp [hstage, Stage.busy?] at hs
  | recorded s d report calls hstage h hshare he => simp [hstage, Stage.busy?] at hs

end Frame

end Comparison

end ShardedDelivery
