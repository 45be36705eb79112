import ShardedDelivery.Proofs.Pool.Comparison

/-! # Staying abreast

Whatever step a handler of a pool takes, it stays abreast of the handler on its own. An event that
is not its own is skipped, and the plan of one that is its own is carried out in lockstep. -/

namespace ShardedDelivery

theorem Worker.toSite_follow {σ : Type} (w : Worker) (s : Nat) (d : Delivery) (scene : Scene σ)
    (progress : Plan.Progress) : (w.follow s d scene progress).2.toSite = scene.toSite := by
  cases progress with
  | going plan => rfl
  | ended ending => cases ending <;> rfl

namespace Comparison

variable {σ σ' τ : Type} {c : Comparison σ σ' τ} {n i k s : Nat} {air : Option Delivery}
  {d : Delivery} {begun calls : List Call} {plan : Plan} {slot : Slot} {t : Tally} {y : Scene σ'}
  {past past' : Trail} {w w' : Worker} {x x' : Scene σ}

/-! ## Between deliveries -/

/-- At rest, a handler has counted its share. -/
theorem Abreast.tally_eq (h : c.Abreast n i k none [] (c.after k).handler.tally (c.after k).scene
    past w x) : w.handler.tally.work = c.share n i k :=
  add_right_cancel h.tally

/-- An event that falls to somebody else is skipped. -/
theorem Abreast.skip (h : c.Abreast n i s none [] (c.after s).handler.tally (c.after s).scene
    past w x) (hevent : c.events[s]? = some slot) (hf : ¬ slot.fallsTo n i) :
    c.Abreast n i (s + 1) none [] (c.after (s + 1)).handler.tally (c.after (s + 1)).scene
      past w x := by
  obtain ⟨hagree, heffects, hshare⟩ := c.after_foreign hevent hf
  constructor
  · exact h.agree.trans hagree
  · rw [hshare, h.tally_eq]
  · rw [heffects, h.effects]

/-- A delivery begins with the same plan on both sides. -/
theorem Abreast.begin (h : c.Abreast n i s none [] (c.after s).handler.tally (c.after s).scene
    past w x) (hevent : c.events[s]? = some slot) (hd : slot.delivery = some d)
    (howner : d.subscription.channel.shard n = i) (hx : x'.toSite = x.toSite)
    (htally : w'.handler.tally = w.handler.tally.countSeen.countOwned)
    (heffects : past'.effectsOf n i = past.effectsOf n i) :
    c.Amid n i s d none [] (Plan.dispatch c.queue d slot.failed) slot
      (c.after s).handler.tally.countSeen.countOwned
      ((c.after s).handler.see (c.after s).sequence (c.last (c.after s).sequence)
        (c.after s).scene).2 [] past' w' x' := by
  obtain ⟨hrole, hcalm, -⟩ := c.after_spec s
  have hqueue : (c.after s).handler.queue = c.queue := congrArg (·.2.2) hrole
  have hsite := (c.after s).handler.toSite_see (c.after s).sequence
    (c.last (c.after s).sequence) (c.after s).scene
  refine { agree := ?_, tally := ?_, effects := ?_, event := hevent, delivery := hd,
           owner := howner, calm := ?_, calls := ?_, run := ?_ }
  · rw [hx, hsite]
    exact h.agree
  · simp only [htally, Tally.countOwned_eq, Tally.work_add, Tally.work_countSeen, h.tally_eq]
    rw [add_right_comm, add_assoc]
  · rw [heffects, h.effects]
    rfl
  · rw [hsite]
    exact hcalm
  · rw [Handler.calls_see, List.append_nil]
  · rw [Solo.course, hqueue]

/-! ## In the middle of a delivery -/

/-- The delivery of the handler on its own comes to its end. -/
theorem Amid.ends (h : c.Amid n i s d air begun plan slot t y calls past w x)
    {ending : Plan.Ending} {t' : Tally} {y' : Scene σ'}
    (hrun : plan.run c.solo.env t y = (ending, t', y')) :
    ∃ outcome, ending.outcome? = some outcome := by
  obtain ⟨-, hcalm, -⟩ := c.after_spec s
  obtain ⟨ending', t'', y'', outcome, hc, ho, -⟩ :=
    Solo.course_spec c.soloFollows c.prompt hcalm c.last d slot.failed
  rw [← h.run, hrun, Prod.mk.injEq] at hc
  exact ⟨outcome, hc.1 ▸ ho⟩

/-- When a delivery has come to its end, its outcome is counted on both sides. -/
theorem Amid.record (h : c.Amid n i s d air begun plan slot t y calls past w x)
    {ending : Plan.Ending} {t' : Tally} {y' : Scene σ'} {outcome : Outcome} {calls' : List Call}
    (hrun : plan.run c.solo.env t y = (ending, t', y')) (ho : ending.outcome? = some outcome)
    (hcalls : y'.calls = (c.after s).scene.calls ++ calls')
    (hagree : c.pool.Agree c.solo c.home (·.shard n = i) none x'.toSite y'.toSite)
    (htally : w'.handler.tally.work + (c.after s).handler.tally.work =
      c.share n i s + (t'.countOutcome outcome).work)
    (heffects : past'.effectsOf n i =
      c.effectsOf n i s ++ calls'.map (.call s d.subscription.channel))
    (hstage : w'.stage = .recorded s d ⟨d.message.id, d.subscription.channel, outcome⟩) :
    c.Tracks n i past' w' x' := by
  obtain ⟨hrole, -, hsequence⟩ := c.after_spec s
  obtain ⟨hlt, -⟩ := List.getElem?_eq_some_iff.mp h.event
  have hcourse : (c.after s).course c.solo.env c.last d slot.failed = (ending, t', y') :=
    h.run.symm.trans hrun
  obtain ⟨scene, hsite, -, heq⟩ := Solo.handle_some hrole h.delivery hcourse ho
  rw [← c.after_succ h.event, hcalls, List.drop_left, hsequence hlt.le] at heq
  have hfalls : slot.fallsTo n i := Slot.fallsTo_iff.mpr ⟨d, h.delivery, h.owner⟩
  refine .recorded s d _ calls' hstage ⟨?_, ?_, heffects⟩ ?_ ?_
  · rw [heq]
    simp only [hsite]
    exact hagree
  · rw [heq]
    exact htally
  · rw [c.share_succ, h.event, Option.any_some, if_pos hfalls]
  · rw [effectsOf, heq]
    simp [effectsOf, Effect.fallsTo, Effect.channel, h.owner]

/-- After the same progress on both sides, the handlers are still abreast. -/
theorem Amid.follow (h : c.Amid n i s d air begun plan slot t y calls past w x)
    {progress : Plan.Progress} {t' : Tally} {y' : Scene σ'}
    (hstep : plan.step c.solo.env t y = (progress, t', y')) (hserves : progress.Serves d k)
    (hcalm : c.solo.calm y'.outside)
    (hagree : c.pool.Agree c.solo c.home (·.shard n = i) none x'.toSite y'.toSite)
    (htally : w'.handler.tally.work + (c.after s).handler.tally.work = c.share n i s + t'.work)
    (heffects : past'.effectsOf n i =
      c.effectsOf n i s ++ (calls ++ plan.calls).map (.call s d.subscription.channel)) :
    c.Tracks n i past' (w'.follow s d x' progress).1 (w'.follow s d x' progress).2 := by
  have hrun := plan.run_eq_step c.solo.env t y
  have hcalls : y'.calls = (c.after s).scene.calls ++ (calls ++ plan.calls) := by
    rw [← List.append_assoc, ← h.calls, ← plan.calls_step c.solo.env t y, hstep]
  simp only [hstep] at hrun
  cases progress with
  | going rest =>
      refine .dispatching s d rest k slot t' y' (calls ++ plan.calls) rfl hserves ?_
      refine { agree := hagree, tally := htally, effects := ?_, event := h.event,
               delivery := h.delivery, owner := h.owner, calm := hcalm, calls := hcalls,
               run := hrun.symm.trans h.run }
      rw [heffects, List.append_nil]
  | ended ending =>
      obtain ⟨outcome, ho⟩ := h.ends hrun
      have hcount : (w'.handler.tally.countOutcome outcome).work + (c.after s).handler.tally.work =
          c.share n i s + (t'.countOutcome outcome).work := by
        rw [Tally.countOutcome_eq, Tally.countOutcome_eq t', Tally.work_add, Tally.work_add,
          ← add_assoc, ← htally]
        exact add_right_comm _ _ _
      cases ending with
      | finished o =>
          cases ho
          exact h.record hrun rfl hcalls hagree hcount heffects rfl
      | crashed crash =>
          cases ho
          exact h.record hrun rfl hcalls hagree hcount heffects rfl
      | waiting call mark rest => contradiction

/-- A handler stays abreast by a turn that concerns nobody else. -/
structure Turned (c : Comparison σ σ' τ) (n i : Nat) (past deeds : Trail) (w : Worker)
    (x x' : Scene σ) : Prop where
  tracks : c.Tracks n i (past ++ deeds) w x'
  calm : c.pool.calm x'.outside
  elsewhere : ∀ j, i ≠ j → c.pool.Agree c.pool c.home (·.shard n = j) none x'.toSite x.toSite
  effects : ∀ z ∈ Trail.effects deeds, z.fallsTo n i

/-- The effects of a piece of a plan are those of its delivery. -/
theorem fallsTo_of_piece (s : Nat) (calls : List Call)
    (howner : d.subscription.channel.shard n = i) (stage : Stage) :
    ∀ z ∈ Trail.effects (calls.map (.called i s d) ++ stage.recording i), z.fallsTo n i := by
  intro z hz
  simp only [Trail.effects, List.mem_filterMap, List.mem_append, List.mem_map] at hz
  obtain ⟨x, ⟨call, -, rfl⟩ | hx, hz⟩ := hz
  · cases hz
    exact decide_eq_true howner
  · cases stage with
    | recorded s' d' report =>
        simp only [Stage.recording, List.mem_singleton] at hx
        subst hx
        contradiction
    | _ => simp [Stage.recording] at hx

theorem Amid.effects_piece (h : c.Amid n i s d none [] plan slot t y calls past w x)
    (more : List Call) (stage : Stage) :
    Trail.effectsOf n i (past ++ (more.map (.called i s d) ++ stage.recording i)) =
      c.effectsOf n i s ++ (calls ++ more).map (.call s d.subscription.channel) := by
  have heffects := h.effects
  rw [List.append_nil] at heffects
  rw [Trail.effectsOf_append, Trail.effectsOf_append, heffects,
    Trail.effectsOf_calls n i i s d more h.owner, Trail.effectsOf_recording, List.append_nil,
    List.map_append, List.append_assoc]

/-- The next piece of a plan. -/
theorem Amid.step (h : c.Amid n i s d none [] plan slot t y calls past w x)
    (hp : plan.Serves d k) (hcalm : c.pool.calm x.outside) {progress : Plan.Progress}
    {tally : Tally} (hstep : plan.step c.pool.env w.handler.tally x = (progress, tally, x')) :
    c.Turned n i past
      (plan.calls.map (.called i s d) ++
        ((w.withTally tally).follow s d x' progress).1.stage.recording i)
      ((w.withTally tally).follow s d x' progress).1 x
      ((w.withTally tally).follow s d x' progress).2 := by
  have hview := h.agree.view_eq h.owner h.home
  obtain ⟨hbeside, hcalm'⟩ := Plan.step_beside c.follows hp w.handler.tally hcalm
  obtain ⟨k', -, -, hserves⟩ := Plan.Serves.step hp c.pool.env w.handler.tally x
  have htally : tally.work + (c.after s).handler.tally.work =
      c.share n i s + (t + plan.bill).work := by
    have hbill : tally = w.handler.tally + plan.bill := by
      rw [← plan.tally_step c.pool.env w.handler.tally x, hstep]
    rw [hbill, Tally.work_add, Tally.work_add, add_right_comm, h.tally, add_assoc]
  have halike := Plan.step_alike c.follows c.soloFollows c.prompt hp w.handler.tally t hcalm
    h.calm hview
  simp only [hstep] at hbeside hcalm' hserves halike
  refine ⟨?_, ?_, ?_, fallsTo_of_piece s plan.calls h.owner _⟩
  · rcases halike with ⟨mark, rest, rfl, rfl, hresumes⟩ | ⟨rfl, hview'⟩
    · refine .waiting s d mark rest k' slot t y calls rfl hserves.2 ?_ hresumes
      refine { h with agree := h.agree.lift hbeside, tally := ?_, effects := ?_ }
      · simpa [Plan.bill, Worker.follow, Worker.withTally] using htally
      · exact h.effects_piece [.send d] _
    · obtain ⟨hbeside', hcalm''⟩ := Plan.step_beside c.soloFollows hp t h.calm
      have hsolo : plan.step c.solo.env t y =
          ((plan.step c.solo.env t y).1, t + plan.bill, (plan.step c.solo.env t y).2.2) := by
        rw [← plan.tally_step c.solo.env t y]
      exact h.follow hsolo hserves hcalm'' (h.agree.both hbeside hbeside' hview') htally
        (h.effects_piece plan.calls _)
  · rw [Worker.toSite_follow]
    exact hcalm'
  · intro j hj
    rw [Worker.toSite_follow]
    exact hbeside.agree (fun hown => hj (h.owner.symm.trans hown)) h.home

/-- The answer to a send that waited. -/
theorem Amid.resume {mark : Nat} {rest : (Call.send d).Reply → Plan}
    (h : c.Amid n i s d (some d) [.send d] (.call (.send d) rest) slot t y calls past w x)
    (hp : ∀ reply, (rest reply).Serves d k) (hcalm : c.pool.calm x.outside)
    (hw : c.pool.Resumes c.behaviour d mark (c.solo.view d y.toSite) x.toSite)
    {result : Except Crash (Call.send d).Reply}
    (hlate : x.callLate c.pool.env (.send d) mark = some (result, x')) :
    c.Turned n i past ((w.follow s d x' (.ofResult rest result)).1.stage.recording i)
      (w.follow s d x' (.ofResult rest result)).1 x
      (w.follow s d x' (.ofResult rest result)).2 := by
  obtain ⟨hresult, hview, hbeside, hcalm'⟩ :=
    Scene.callLate_alike c.soloFollows c.prompt hcalm h.calm hw hlate
  obtain ⟨hbeside', hcalm''⟩ := Scene.call_send_beside (d := d) c.soloFollows h.calm
  have hstep : (Plan.call (.send d) rest).step c.solo.env t y =
      (.ofResult rest result, t, (y.call c.solo.env (.send d)).2) := by
    simp only [Plan.step, hresult, Plan.Progress.ofAttempt]
  refine ⟨?_, ?_, ?_, fallsTo_of_piece s [] h.owner _⟩
  · refine h.follow hstep (Plan.Progress.serves_ofResult hp result) hcalm''
      (h.agree.land hbeside hbeside' hview) h.tally ?_
    rw [Trail.effectsOf_append, Trail.effectsOf_recording, List.append_nil]
    exact h.effects
  · rw [Worker.toSite_follow]
    exact hcalm'
  · intro j hj
    rw [Worker.toSite_follow]
    exact hbeside.agree (fun hown => hj (h.owner.symm.trans hown)) h.home

/-- A turn at rest in which nothing reaches the outside. -/
theorem Tracks.idle {deeds : Trail} (h : c.Tracks n i past w x) (hs : w.stage.busy? = none)
    (hs' : w'.stage.busy? = none) (hcalm : c.pool.calm x.outside)
    (htally : w'.handler.tally.work = w.handler.tally.work)
    (hdone : Trail.reached deeds i .done = 0)
    (heffects : Trail.effects deeds = []) : c.Turned n i past deeds w' x x := by
  have hnone : Trail.effectsOf n i (past ++ deeds) = Trail.effectsOf n i past := by
    rw [Trail.effectsOf_append, Trail.effectsOf, Trail.effectsOf, heffects, List.filter_nil,
      List.append_nil]
  refine ⟨.rest _ hs' ?_ ((h.abreast hs).frame htally hnone (.refl _ _ _ _ _)), hcalm,
    fun j _ => .refl _ _ _ _ _, by simp [heffects]⟩
  rw [Trail.reached_append, hdone, Nat.add_zero]

/-- What a handler is shown is skipped, or its delivery begins. -/
theorem Tracks.begin (h : c.Tracks n i past w x) (hs : w.stage = .released s slot)
    (hdone : past.reached i .done = s) (hrole : w.handler.role = (i, n, c.queue))
    (hshare : past.Shares n i s slot) (hevents : past.events <+: c.events)
    (hcalm : c.pool.calm x.outside) :
    c.Turned n i past ((Stage.released s slot).deeds i (w.begin s slot x).1.stage)
      (w.begin s slot x).1 x (w.begin s slot x).2 := by
  have hrest := h.abreast (by rw [hs]; rfl)
  have hsite : (w.begin s slot x).2.toSite = x.toSite := by
    have hsee := w.handler.toSite_see s w.inbox.isEmpty x
    simp only [Worker.begin]
    split <;> exact hsee
  have helsewhere : ∀ j, i ≠ j →
      c.pool.Agree c.pool c.home (·.shard n = j) none (w.begin s slot x).2.toSite x.toSite := by
    intro j _
    rw [hsite]
    exact .refl _ _ _ _ _
  have hcalm' : c.pool.calm (w.begin s slot x).2.outside := by
    rw [hsite]
    exact hcalm
  have hnone (deeds : Trail) (hd : Trail.effects deeds = []) :
      Trail.effectsOf n i (past ++ deeds) = Trail.effectsOf n i past := by
    rw [Trail.effectsOf_append, Trail.effectsOf, Trail.effectsOf, hd, List.filter_nil,
      List.append_nil]
  have hpublished : ∀ event, past.events[s]? = some event → c.events[s]? = some event := by
    intro event hevent
    obtain ⟨hlt, rfl⟩ := List.getElem?_eq_some_iff.mp hevent
    exact List.prefix_iff_getElem?.mp hevents s hlt
  rw [hdone] at hrest
  cases hc : w.handler.claim? slot with
  | none =>
      obtain ⟨event, hevent, hslot⟩ := id hshare
      have hforeign : ¬ event.fallsTo n i := by
        intro hfalls
        rw [Slot.shareOf, if_pos hfalls] at hslot
        exact Handler.not_fallsTo hrole hc (hslot ▸ hfalls)
      have hw' := Worker.begin_of_none s x hc
      refine ⟨.rest (s + 1) ?_ ?_ ((hrest.skip (hpublished event hevent) hforeign).frame ?_ ?_ ?_),
        hcalm', helsewhere, ?_⟩
      · rw [hw']
        rfl
      · simp [hw', Stage.deeds, Deed.passes, hdone]
      · rw [hw']
        rfl
      · exact hnone _ (by rw [hw']; rfl)
      · rw [hsite]
        exact .refl _ _ _ _ _
      · rw [hw']
        simp [Stage.deeds, Trail.effects, Deed.effect?]
  | some d =>
      have hd := (Handler.claim?_eq_some hrole hc).1
      obtain ⟨⟨-, -, -, howner⟩, hevent⟩ := hshare.assigns hd
      have hqueue : w.handler.queue = c.queue := congrArg (·.2.2) hrole
      have hw' := Worker.begin_of_some s x hc
      refine ⟨.dispatching s d (Plan.dispatch c.queue d slot.failed) 1 slot _ _ [] ?_
        (Plan.serves_dispatch _ _ _)
        (hrest.begin (hpublished slot hevent) hd howner hsite ?_ ?_), hcalm', helsewhere, ?_⟩
      · rw [hw', hqueue]
      · rw [hw']
        rfl
      · exact hnone _ (by rw [hw']; rfl)
      · rw [hw']
        simp [Stage.deeds, Trail.effects, Deed.effect?]

/-- Once its report is sent, a handler is through with an event. -/
theorem Tracks.report {report : Report} (h : c.Tracks n i past w x)
    (hs : w.stage = .recorded s d report) (hdone : past.reached i .done = s)
    (howner : report.channel.shard n = i) (hcalm : c.pool.calm x.outside) :
    c.Turned n i past [.reported i s report, .done i s] { w with stage := .idle } x x := by
  have hfalls : (Effect.report s report).fallsTo n i := decide_eq_true howner
  refine ⟨?_, hcalm, fun j _ => .refl _ _ _ _ _, ?_⟩
  · cases h with
    | rest k hstage hk h => simp [hs, Stage.busy?] at hstage
    | dispatching s' d' plan k slot t y calls hstage hp h => simp [hs] at hstage
    | waiting s' d' mark rest k slot t y calls hstage hp h hw => simp [hs] at hstage
    | recorded s' d' report' calls hstage h hshare heffects =>
        rw [hs] at hstage
        cases hstage
        refine .rest (s + 1) rfl (by simp [Deed.passes, hdone]) ⟨h.agree, ?_, ?_⟩
        · have htally := h.tally
          rw [add_comm] at htally
          rw [hshare, cost, add_right_cancel_iff, ← add_sub_assoc, ← htally, add_sub_cancel_left]
        · rw [Trail.effectsOf_append, h.effects, heffects, List.append_nil, List.append_assoc]
          simp [Trail.effectsOf, Trail.effects, Deed.effect?, hfalls]
  · simp [Trail.effects, Deed.effect?, hfalls]

/-- Whatever its next step, a handler stays abreast. -/
theorem Tracks.advance (h : c.Tracks n i past w x) (hcalm : c.pool.calm x.outside)
    (hat : w.stage.At (past.reached i)) (hfaithful : w.stage.Faithful n past i)
    (hrole : w.handler.role = (i, n, c.queue)) (hevents : past.events <+: c.events)
    {closed : Bool} {ring : Ring} {next : Worker.Advance σ}
    (hnext : w.advance c.pool.env closed ring x = some next) :
    c.Turned n i past (w.stage.deeds i next.worker.stage) next.worker x next.scene := by
  cases hs : w.stage with
  | idle =>
      have hrest : w.stage.busy? = none := by rw [hs]; rfl
      simp only [Worker.advance, hs] at hnext
      split at hnext
      · cases hnext
        exact h.idle hrest rfl hcalm rfl (by simp [Stage.deeds, Deed.passes]) rfl
      · split at hnext
        · cases hnext
          exact h.idle hrest rfl hcalm rfl rfl rfl
        · contradiction
  | received s =>
      have hrest : w.stage.busy? = none := by rw [hs]; rfl
      rw [Worker.advance_received hs, Option.some.injEq] at hnext
      subst hnext
      exact h.idle hrest rfl hcalm rfl (by simp [Stage.deeds, Deed.passes]) rfl
  | claimed s slot =>
      have hrest : w.stage.busy? = none := by rw [hs]; rfl
      simp only [Worker.advance, hs, Option.some.injEq] at hnext
      subst hnext
      exact h.idle hrest rfl hcalm rfl (by simp [Stage.deeds, Deed.passes]) rfl
  | released s slot =>
      rw [Worker.advance_released hs, Option.some.injEq] at hnext
      subst hnext
      rw [hs] at hat hfaithful
      exact h.begin hs hat.2.2.2.2 hrole hfaithful hevents hcalm
  | dispatching s d plan =>
      rw [Worker.advance_dispatching hs, Option.some.injEq] at hnext
      subst hnext
      rw [Stage.deeds_dispatching]
      cases h with
      | rest k hstage hk h => simp [hs, Stage.busy?] at hstage
      | dispatching s' d' plan' k slot t y calls hstage hp h =>
          rw [hs] at hstage
          cases hstage
          exact h.step hp hcalm rfl
      | waiting s' d' mark rest k slot t y calls hstage hp h hw => simp [hs] at hstage
      | recorded s' d' report calls hstage h hshare heffects => simp [hs] at hstage
  | waiting s d call mark rest =>
      rw [Worker.advance_waiting hs, Option.map_eq_some_iff] at hnext
      obtain ⟨⟨result, x'⟩, hlate, rfl⟩ := hnext
      cases h with
      | rest k hstage hk h => simp [hs, Stage.busy?] at hstage
      | dispatching s' d' plan k slot t y calls hstage hp h => simp [hs] at hstage
      | waiting s' d' mark' rest' k slot t y calls hstage hp h hw =>
          rw [hs] at hstage
          cases hstage
          exact h.resume hp hcalm hw hlate
      | recorded s' d' report calls hstage h hshare heffects => simp [hs] at hstage
  | recorded s d report =>
      simp only [Worker.advance, hs, Option.some.injEq] at hnext
      subst hnext
      rw [hs] at hat hfaithful
      obtain ⟨⟨-, -, -, howner⟩, hof⟩ := hfaithful
      exact h.report hs hat.2.2.2.2 (hof.1 ▸ howner) hcalm
  | ended =>
      simp only [Worker.advance, hs] at hnext
      contradiction

end Comparison

end ShardedDelivery
