import Mathlib.Algebra.BigOperators.Group.Finset.Piecewise
import Mathlib.Algebra.BigOperators.Group.Finset.Sigma
import ShardedDelivery.Proofs.Pool.Abreast
import ShardedDelivery.Proofs.Pool.HandOff
import ShardedDelivery.Proofs.Scripted

/-! # A pool does what one handler does

As long as the callees mind their own channels, a pool is not to be told from a handler that serves
all channels by itself, but for the order of what happens on different channels. -/

namespace ShardedDelivery

variable {σ σ' τ : Type}

theorem Pool.Move.config_eq {p q : Pool} {deeds : Trail} (h : p.Move deeds q) :
    q.config = p.config := by
  cases h with
  | come slot =>
      obtain ⟨waiting, results, heq, -⟩ := p.publish_eq slot
      rw [heq]
  | _ => rfl

theorem Run.config_eq {e : Environment σ} {rely : Site σ → Site σ → Prop} {config : Config}
    {reporting : Bool} {scene : Scene σ} {past : Trail} {f : Floor σ}
    (h : Run e rely (.opening config reporting scene) past f) : f.pool.config = config :=
  h.invariant (I := fun p _ => p.config = config) rfl fun _ _ _ _ hp hm => hm.config_eq.trans hp

namespace Comparison

/-- Every handler of the pool is abreast. -/
structure Kept (c : Comparison σ σ' τ) (n : Nat) (past : Trail) (f : Floor σ) : Prop where
  calm : c.pool.calm f.scene.outside
  tracks : ∀ i (w : Worker), f.pool.workers[i]? = some w → c.Tracks n i past w f.scene

namespace Kept

variable {c : Comparison σ σ' τ} {n : Nat} {past deeds : Trail} {f g : Floor σ}

/-- Actions in which no handler goes on. -/
theorem keep (h : c.Kept n past f) (hscene : g.scene.toSite = f.scene.toSite)
    (hworkers : ∀ (i : Nat) (w : Worker), g.pool.workers[i]? = some w →
      ∃ v : Worker, f.pool.workers[i]? = some v ∧ w.stage = v.stage ∧ w.handler = v.handler)
    (hdone : ∀ i, Trail.reached deeds i .done = 0) (heffects : Trail.effects deeds = []) :
    c.Kept n (past ++ deeds) g where
  calm := by
    rw [hscene]
    exact h.calm
  tracks := by
    intro i w hw
    obtain ⟨v, hv, hstage, hhandler⟩ := hworkers i w hw
    refine (h.tracks i v hv).frame hstage (by rw [hhandler]) ?_ ?_ ?_
    · rw [Trail.reached_append, hdone, Nat.add_zero]
    · rw [Trail.effectsOf_append, Trail.effectsOf, Trail.effectsOf, heffects, List.filter_nil,
        List.append_nil]
    · rw [hscene]
      exact .refl _ _ _ _ _

/-- A handler goes on, and the others are not concerned. -/
theorem advance (h : c.Kept n past f) (hs : f.pool.Sound n past)
    (hqueue : f.pool.config.queue = c.queue) (hevents : past.events <+: c.events) {i : Nat}
    (hact : f.act c.pool.env (.advance i) = some g) :
    c.Kept n (past ++ f.deeds (.advance i) g) g := by
  obtain ⟨⟨q, scene⟩, hq, rfl⟩ := Option.map_eq_some_iff.mp hact
  obtain ⟨w, next, hw, hnext, rfl, rfl⟩ := Pool.advance_eq_some hq
  have hw' : (f.pool.workers.set i next.worker)[i]? = some next.worker :=
    getElem?_set_self_of_some hw
  have hturn := Worker.turn_of_advance i hnext
  have hrole := hs.staffed.role i w hw
  rw [hqueue] at hrole
  have hturned := (h.tracks i w hw).advance h.calm (hs.positioned.stands i w hw).stage
    (hs.shared.stages i w hw) hrole hevents hnext
  simp only [Floor.deeds, hw, hw']
  refine ⟨hturned.calm, ?_⟩
  intro j v hv
  rcases eq_or_of_getElem?_set hv with ⟨rfl, rfl⟩ | ⟨hj, hv⟩
  · exact hturned.tracks
  · refine (h.tracks j v hv).frame rfl rfl ?_ ?_ (hturned.elsewhere j (Ne.symm hj))
    · rw [Trail.reached_append, hturn.reached_of_ne hj, Nat.add_zero]
    · rw [Trail.effectsOf_append]
      refine List.append_right_eq_self.mpr (List.filter_eq_nil_iff.mpr ?_)
      intro z hz hfalls
      have hi := hturned.effects z hz
      simp only [Effect.fallsTo, decide_eq_true_eq] at hi hfalls
      exact hj (hfalls.symm.trans hi)

/-- A step of the publisher with the lock changes no handler but for its inbox. -/
theorem proceed (h : c.Kept n past f) {e : Environment σ} (hact : f.act e .proceed = some g) :
    c.Kept n (past ++ f.deeds .proceed g) g := by
  have hdeeds : (∀ i, Trail.reached (f.deeds .proceed g) i .done = 0) ∧
      Trail.effects (f.deeds .proceed g) = [] := by
    simp only [Floor.deeds, Floor.announcements]
    split
    · exact ⟨fun i => rfl, rfl⟩
    · exact ⟨fun i => by simp [Deed.passes], rfl⟩
    · split
      · exact ⟨fun i => rfl, rfl⟩
      · exact ⟨fun i => rfl, rfl⟩
    · exact ⟨fun i => rfl, rfl⟩
  obtain ⟨⟨q, scene⟩, hq, rfl⟩ := Option.map_eq_some_iff.mp hact
  obtain ⟨hscene, hworkers⟩ := Pool.proceed_eq_some hq
  refine h.keep ?_ ?_ hdeeds.1 hdeeds.2
  · rcases hscene with rfl | ⟨line, rfl⟩ <;> rfl
  · intro i w hw
    rcases hworkers with heq | ⟨told, v, s, hv, heq⟩
    · exact ⟨w, by rwa [← heq], rfl, rfl⟩
    · rw [heq] at hw
      rcases eq_or_of_getElem?_set hw with ⟨rfl, rfl⟩ | ⟨-, hw⟩
      · exact ⟨v, hv, rfl, rfl⟩
      · exact ⟨w, hw, rfl, rfl⟩

/-- Whatever is done in a pool, its handlers stay abreast, unless one of them is stopped. -/
theorem act (h : c.Kept n past f) (hs : f.pool.Sound n past)
    (hqueue : f.pool.config.queue = c.queue) (hevents : past.events <+: c.events) {a : Action}
    (hact : f.act c.pool.env a = some g) (hstop : ∀ i, .stopped i ∉ f.deeds a g) :
    c.Kept n (past ++ f.deeds a g) g := by
  cases a with
  | publish slot =>
      cases hact
      obtain ⟨waiting, results, heq, -⟩ := f.pool.publish_eq slot
      refine h.keep rfl (fun i w hw => ⟨w, ?_, rfl, rfl⟩) (fun i => rfl) rfl
      rwa [heq] at hw
  | acquire ticket =>
      obtain ⟨q, hq, rfl⟩ := Option.map_eq_some_iff.mp hact
      refine h.keep rfl (fun i w hw => ⟨w, ?_, rfl, rfl⟩) (fun i => rfl) rfl
      unfold Pool.acquire at hq
      split at hq
      · cases hq
        exact hw
      · contradiction
  | proceed => exact h.proceed hact
  | cancel ticket =>
      obtain ⟨q, hq, rfl⟩ := Option.map_eq_some_iff.mp hact
      refine h.keep rfl (fun i w hw => ⟨w, ?_, rfl, rfl⟩) (fun i => rfl) rfl
      have hworkers : q.workers = f.pool.workers := by
        unfold Pool.cancel Pool.cancel.withdraw at hq
        grind
      rwa [← hworkers]
  | advance i => exact h.advance hs hqueue hevents hact
  | stop i => exact absurd (List.mem_singleton_self _) (hstop i)
  | close =>
      obtain ⟨-, rfl⟩ := Floor.close_of_act hact
      exact h.keep rfl (fun i w hw => ⟨w, hw, rfl, rfl⟩) (fun i => rfl) rfl
  | join =>
      obtain rfl := Floor.join_of_act hact
      exact h.keep rfl (fun i w hw => ⟨w, hw, rfl, rfl⟩) (fun i => rfl) rfl

/-- What others do to the site leaves everyone abreast, as long as no transport can see it. -/
theorem meanwhile (h : c.Kept n past f) {site : Site σ}
    (hstill : c.pool.Still f.scene.toSite site) :
    c.Kept n past { f with scene := f.scene.moveTo site } :=
  ⟨hstill.calm h.calm, fun i w hw => (h.tracks i w hw).frame rfl rfl rfl rfl hstill.agree⟩

/-- At the start, nobody has done anything. -/
theorem new (c : Comparison σ σ' τ) (config : Config) (reporting : Bool) {scene : Scene σ}
    (hcalm : c.pool.calm scene.outside)
    (hsame : c.pool.Agree c.solo c.home (fun _ => True) none scene.toSite c.scene.toSite) :
    c.Kept config.handlers.toNat [] (.opening config reporting scene) where
  calm := hcalm
  tracks := by
    intro i w hw
    simp only [Floor.opening, Pool.new, List.getElem?_map, Option.map_eq_some_iff] at hw
    obtain ⟨j, -, rfl⟩ := hw
    refine .rest 0 rfl rfl ⟨?_, ?_, ?_⟩
    · rw [after_zero]
      exact ⟨fun m _ => hsame.messages m trivial, fun x _ => hsame.subscriptions x trivial,
        fun ch _ => hsame.parts ch trivial⟩
    · rfl
    · rw [effectsOf, after_zero]
      rfl

end Kept

/-- In a run in which no handler is stopped, all of them stay abreast. -/
theorem kept_of_run (c : Comparison σ σ' τ) {rely : Site σ → Site σ → Prop} {config : Config}
    {reporting : Bool} {scene : Scene σ} {past : Trail} {f : Floor σ}
    (hrely : ∀ s s', rely s s' → c.pool.Still s s') (hcalm : c.pool.calm scene.outside)
    (hsame : c.pool.Agree c.solo c.home (fun _ => True) none scene.toSite c.scene.toSite)
    (hqueue : config.queue = c.queue)
    (h : Run c.pool.env rely (.opening config reporting scene) past f)
    (hstop : ∀ i, .stopped i ∉ past) (hevents : past.events <+: c.events) :
    c.Kept config.handlers.toNat past f := by
  induction h with
  | start => exact .new c config reporting hcalm hsame
  | @act past f a g hrun hact ih =>
      have hbefore : past.events <+: c.events := by
        rw [Trail.events_append] at hevents
        exact (List.prefix_append _ _).trans hevents
      have hkept := ih (fun i hi => hstop i (List.mem_append_left _ hi)) hbefore
      refine hkept.act hrun.sound ?_ hbefore hact fun i hi => hstop i (List.mem_append_right _ hi)
      rw [hrun.config_eq, hqueue]
  | meanwhile hrun hchange ih => exact (ih hstop hevents).meanwhile (hrely _ _ hchange)

/-! ## At the end of a run -/

section Ends

variable (c : Comparison σ σ' τ)

/-- An event without a delivery costs nothing. -/
theorem cost_eq_zero {s : Nat} {slot : Slot} (h : c.events[s]? = some slot)
    (hd : slot.delivery = none) : c.cost s = 0 := by
  obtain ⟨hrole, -, -⟩ := c.after_spec s
  rw [cost, c.after_succ h, Solo.handle_none hrole hd]
  exact sub_self _

/-- All shares together are what the handler on its own has counted. -/
theorem sum_share {n : Nat} (hn : 0 < n) :
    ∑ i ∈ Finset.range n, c.share n i c.events.length =
      (c.after c.events.length).handler.tally.work := by
  have hevent (s : Nat) (hs : s ∈ Finset.range c.events.length) :
      (∑ i ∈ Finset.range n, if c.events[s]?.any (Slot.fallsTo n i) then c.cost s else 0) =
        c.cost s := by
    obtain ⟨slot, hslot⟩ : ∃ slot, c.events[s]? = some slot :=
      ⟨_, List.getElem?_eq_getElem (Finset.mem_range.mp hs)⟩
    simp only [hslot, Option.any_some]
    cases hd : slot.delivery with
    | none =>
        rw [c.cost_eq_zero hslot hd]
        simp
    | some d =>
        have howner := Finset.mem_range.mpr (d.subscription.channel.shard_lt_of_pos hn)
        simp [Slot.fallsTo, hd, Finset.sum_ite_eq, howner]
  have htotal : ∑ s ∈ Finset.range c.events.length, c.cost s =
      (c.after c.events.length).handler.tally.work - (c.after 0).handler.tally.work :=
    Finset.sum_range_sub (fun k => (c.after k).handler.tally.work) _
  simp only [share]
  rw [Finset.sum_comm, Finset.sum_congr rfl hevent, htotal, after_zero]
  exact sub_zero _

/-- The calls of the handler on its own are among its effects. -/
theorem calls_after (k : Nat) :
    (c.after k).scene.calls = c.scene.calls ++ (c.after k).effects.filterMap Effect.call? := by
  induction k with
  | zero =>
      rw [after_zero]
      exact (List.append_nil _).symm
  | succ k ih =>
      cases h : c.events[k]? with
      | none =>
          have heq : c.after (k + 1) = c.after k := by simp [after, List.take_add_one, h]
          rw [heq, ih]
      | some slot =>
          obtain ⟨hrole, hcalm, -⟩ := c.after_spec k
          obtain ⟨more, hmore, -, hcalls⟩ :=
            Solo.effects_handle c.soloFollows c.prompt hrole hcalm c.last slot
          rw [c.after_succ h, hmore, hcalls, ih, List.filterMap_append, List.append_assoc]

variable {c} {n : Nat} {past : Trail} {f : Floor σ}

/-- When the pool has drained, all handlers are abreast of the end. -/
theorem Kept.abreast (h : c.Kept n past f) (hs : f.pool.Sound n past)
    (hstop : ∀ i, .stopped i ∉ past) (hdrained : f.pool.Drained) (hevents : past.events = c.events)
    {i : Nat} (hi : i < n) :
    ∃ w, f.pool.workers[i]? = some w ∧
      c.Abreast n i c.events.length none [] (c.after c.events.length).handler.tally
        (c.after c.events.length).scene past w f.scene := by
  have hlt : i < f.pool.workers.length := by rwa [hs.staffed.size]
  have hw : f.pool.workers[i]? = some f.pool.workers[i] := List.getElem?_eq_getElem hlt
  have hended := Worker.isGone_iff.mp (hdrained.2 _ (List.getElem_mem hlt))
  have habreast := (h.tracks i _ hw).abreast (by rw [hended]; rfl)
  have hdone : past.reached i .done = c.events.length := by
    rw [hs.reached_of_drained hstop hdrained hi, ← hs.positioned.written, hevents]
  exact ⟨_, hw, hdone ▸ habreast⟩

/-- What the outside got for each channel is the same. -/
theorem Kept.effects_eq (h : c.Kept n past f) (hs : f.pool.Sound n past) (hn : 0 < n)
    (hstop : ∀ i, .stopped i ∉ past) (hdrained : f.pool.Drained) (hevents : past.events = c.events)
    (ch : ChannelId) :
    past.effects.filter (·.channel = ch) =
      (c.after c.events.length).effects.filter (·.channel = ch) := by
  obtain ⟨w, -, habreast⟩ := h.abreast hs hstop hdrained hevents (ch.shard_lt_of_pos hn)
  have hsame := congrArg (List.filter (·.channel = ch)) habreast.effects
  have hnarrow (l : List Effect) :
      (l.filter (·.fallsTo n (ch.shard n))).filter (·.channel = ch) =
        l.filter (·.channel = ch) := by
    rw [List.filter_filter]
    refine List.filter_congr fun x _ => ?_
    by_cases hx : x.channel = ch <;> simp [Effect.fallsTo, hx]
  rwa [List.append_nil, Trail.effectsOf, effectsOf, hnarrow, hnarrow] at hsame

/-- What the handlers of the pool have counted is what the handler on its own has counted. -/
theorem Kept.tally_eq (h : c.Kept n past f) (hs : f.pool.Sound n past) (hn : 0 < n)
    (hstop : ∀ i, .stopped i ∉ past) (hdrained : f.pool.Drained)
    (hevents : past.events = c.events) :
    f.pool.tally.work = (c.after c.events.length).handler.tally.work := by
  have hshares : f.pool.tallies.map Tally.work =
      (List.range n).map fun i => c.share n i c.events.length := by
    refine List.ext_getElem? fun i => ?_
    by_cases hi : i < n
    · obtain ⟨w, hw, habreast⟩ := h.abreast hs hstop hdrained hevents hi
      simp [Pool.tallies, hw, habreast.tally_eq, hi]
    · have hnone : f.pool.workers[i]? = none := by
        rw [List.getElem?_eq_none_iff, hs.staffed.size]
        omega
      simp [Pool.tallies, hnone, hi]
  rw [Pool.tally, Tally.total_eq_sum, Tally.work_sum, hshares, ← c.sum_share hn]
  rfl

end Ends

end Comparison

/-! ## The refinement -/

namespace Trail

/-- The deliveries of the events written so far. -/
def deliveries (past : Trail) : List Delivery := past.events.filterMap Slot.delivery

/-- The channel on which a message is delivered. -/
def home (past : Trail) (m : Message) : ChannelId :=
  ((past.deliveries.find? (·.message = m)).map (·.subscription.channel)).getD default

theorem home_eq {past : Trail} {d : Delivery} (hd : d ∈ past.deliveries)
    (hhome : ∀ d' ∈ past.deliveries, d'.message = d.message →
      d'.subscription.channel = d.subscription.channel) :
    past.home d.message = d.subscription.channel := by
  unfold home
  cases hfind : past.deliveries.find? (·.message = d.message) with
  | none =>
      have hnone := List.find?_eq_none.mp hfind d hd
      simp at hnone
  | some d' =>
      have hmessage : d'.message = d.message := by simpa using List.find?_some hfind
      exact hhome d' (List.mem_of_find?_eq_some hfind) hmessage

end Trail

namespace Run

variable {rely : Site σ → Site σ → Prop} {config : Config} {scene : Scene σ} {past : Trail}
  {f : Floor σ}

/-- When a pool has drained, and no handler was stopped, it has done what a handler on its own does
that serves all channels and is shown the same events: the same reports about each channel, the same
records of all messages and subscriptions, the same count of everything but events seen, and the
same calls, in the same order on each channel. Each message must be published on one channel only,
transports may neither see nor change what belongs to other channels, and nobody else may
interfere. -/
theorem refines_solo {a : Callees σ τ} {b : Callees σ' τ} {β : Behaviour τ} {scene' : Scene σ'}
    (ha : a.Follows β) (hb : b.Follows β) (hprompt : b.Prompt)
    (hrely : ∀ s s', rely s s' → a.Still s s')
    (hcalm : a.calm scene.outside) (hcalm' : b.calm scene'.outside)
    (hmessages : ∀ m, scene.books.messages.get m = scene'.books.messages.get m)
    (hsubscriptions : ∀ s, scene.books.subscriptions.get s = scene'.books.subscriptions.get s)
    (hparts : ∀ ch, a.part scene.outside ch = b.part scene'.outside ch)
    (h : Run a.env rely (.opening config true scene) past f) (hstop : ∀ i, .stopped i ∉ past)
    (hdrained : f.pool.Drained)
    (hhome : ∀ d ∈ past.deliveries, ∀ d' ∈ past.deliveries, d'.message = d.message →
      d'.subscription.channel = d.subscription.channel)
    (last : Nat → Bool) :
    let solo := (Solo.alone config.queue scene').handleAll b.env last past.events
    (∀ ch, f.pool.reports.filter (·.channel = ch) = solo.reports.filter (·.channel = ch)) ∧
    (∀ m, f.scene.books.messages.get m = solo.scene.books.messages.get m) ∧
    (∀ s, f.scene.books.subscriptions.get s = solo.scene.books.subscriptions.get s) ∧
    { f.pool.tally with seen := 0 } = { solo.handler.tally with seen := 0 } ∧
    f.scene.calls = scene.calls ++ past.effects.filterMap Effect.call? ∧
    solo.scene.calls = scene'.calls ++ solo.effects.filterMap Effect.call? ∧
    past.effects.Perm solo.effects ∧
    ∀ ch, past.effects.filter (·.channel = ch) = solo.effects.filter (·.channel = ch) := by
  intro solo
  let c : Comparison σ σ' τ :=
    { pool := a, solo := b, behaviour := β, home := past.home, queue := config.queue,
      scene := scene', last, events := past.events, follows := ha, soloFollows := hb,
      prompt := hprompt, calm := hcalm',
      homes := by
        intro slot hslot d hd
        have hmem : d ∈ past.deliveries := List.mem_filterMap.mpr ⟨slot, hslot, hd⟩
        exact Trail.home_eq hmem (hhome d hmem) }
  have hn : 0 < config.handlers.toNat := config.handlers_pos
  have hsame : c.pool.Agree c.solo c.home (fun _ => True) none scene.toSite c.scene.toSite :=
    ⟨fun m _ _ => hmessages m, fun s _ _ => hsubscriptions s, fun ch _ _ => hparts ch⟩
  have hkept := c.kept_of_run hrely hcalm hsame rfl h hstop (List.prefix_refl _)
  have hend : c.after c.events.length = solo := by
    rw [Comparison.after, List.take_length]
  have hagree (ch : ChannelId) : c.pool.Agree c.solo c.home
      (fun ch' => ch'.shard config.handlers.toNat = ch.shard config.handlers.toNat) none
      f.scene.toSite solo.scene.toSite := by
    obtain ⟨w, -, habreast⟩ := hkept.abreast h.sound hstop hdrained rfl (ch.shard_lt_of_pos hn)
    rw [← hend]
    exact habreast.agree
  have heffects := hkept.effects_eq h.sound hn hstop hdrained rfl
  have htally := hkept.tally_eq h.sound hn hstop hdrained rfl
  have hcalls := c.calls_after c.events.length
  simp only [hend] at heffects htally hcalls
  refine ⟨?_, ?_, ?_, htally, ?_, hcalls, Effect.perm_of_channels heffects, heffects⟩
  · intro ch
    rw [h.reports_eq, if_pos rfl, Trail.reports_eq_effects, Solo.reports, Effect.filter_reports,
      Effect.filter_reports, heffects ch]
  · intro m
    exact (hagree (past.home m)).messages m rfl (by simp)
  · intro s
    exact (hagree s.channel).subscriptions s rfl (by simp)
  · rw [h.calls_eq, Trail.calls_eq_effects]
    rfl

end Run

namespace Rehearsal

/-- No script of the rehearsal has a send that waits. -/
theorem not_waits (s : Subscription) : ∀ cue ∈ (scripts.get s).cues, ¬ cue.waits := by
  by_cases hfirst : (event 0).subscription = s
  · subst hfirst
    decide
  by_cases hsecond : (event 1).subscription = s
  · subst hsecond
    decide
  intro cue hcue
  simp only [scripts, Table.get, Table.lookup?, hfirst, hsecond, if_false] at hcue
  exact absurd hcue List.not_mem_nil

end Rehearsal

/-- Two handlers, which fail with one delivery each, agree with a handler on its own. -/
theorem Run.refines_solo_rehearsal : ∃ past f,
    Run (Scripted.environment false) (fun _ _ => False) Rehearsal.opening past f ∧
      past.deliveries = (List.range 4).map Rehearsal.event ∧
      f.pool.reports.map (·.outcome) = [.requeued, .delivered, .delivered, .deadLettered] ∧
      let solo := (Solo.alone "dead" Rehearsal.opening.scene).handleAll (Scripted.environment false)
        (fun _ => false) past.events
      (∀ ch, f.pool.reports.filter (·.channel = ch) = solo.reports.filter (·.channel = ch)) ∧
        { f.pool.tally with seen := 0 } = { solo.handler.tally with seen := 0 } ∧
        past.effects.Perm solo.effects := by
  obtain ⟨past, f, hrun, hstaffed, hdrained, hdeliveries, houtcomes⟩ := Rehearsal.exists_run
    Rehearsal.opening Rehearsal.relay
    (P := fun past f => past.staffed ∧ f.pool.Drained ∧
      past.deliveries = (List.range 4).map Rehearsal.event ∧
      f.pool.reports.map (·.outcome) = [.requeued, .delivered, .delivered, .deadLettered])
    (by decide +kernel)
  let callees := Scripted.callees false false Rehearsal.opening.scene.outside.mood
  have hcalm : callees.calm Rehearsal.opening.scene.outside := by
    refine ⟨rfl, fun s cue hcue hwaits => ?_⟩
    exact absurd hwaits (Rehearsal.not_waits s cue hcue)
  have hhome : ∀ d ∈ past.deliveries, ∀ d' ∈ past.deliveries, d'.message = d.message →
      d'.subscription.channel = d.subscription.channel := by
    rw [hdeliveries]
    decide
  obtain ⟨hreports, -, -, htally, -, -, hperm, -⟩ := Run.refines_solo (a := callees) (b := callees)
    (Scripted.follows _ _ _) (Scripted.follows _ _ _) (Scripted.prompt _ _) (by simp) hcalm hcalm
    (fun _ => rfl) (fun _ => rfl) (fun _ => rfl) hrun (Trail.not_stopped hstaffed) hdrained hhome
    fun _ => false
  exact ⟨past, f, hrun, hdeliveries, houtcomes, hreports, htally, hperm⟩

end ShardedDelivery
