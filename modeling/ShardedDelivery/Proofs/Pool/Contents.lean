import ShardedDelivery.Proofs.Contents
import ShardedDelivery.Proofs.Pool.HandOff
import ShardedDelivery.Proofs.Pool.Journal
import ShardedDelivery.Proofs.Pool.Order

/-! # Contents in a pool

The bare form of a pool takes the bare forms of its steps. So two runs of one schedule, with events
that differ in nothing but contents, differ in nothing else. And although places are used again
and again, what is sent under a sequence is what was published under it. -/

namespace ShardedDelivery

variable {σ τ : Type} {e : Environment σ} {shows : σ → τ}

/-! ## Rings -/

/-- A place without the content in its slot. -/
def Place.bare (p : Place) : Place := { p with slot := p.slot.bare }

namespace Ring

/-- A ring without contents. -/
def bare (r : Ring) : Ring where
  places := r.places.map Place.bare
  readers := r.readers
  size_pos := by simpa using r.size_pos

variable (r : Ring)

@[simp] theorem capacity_bare : r.bare.capacity = r.capacity := by
  simp [capacity, bare]

theorem place_bare (s : Nat) : r.bare.place s = (r.place s).bare := by
  simp [place, bare, index]

theorem update_bare (s : Nat) (p : Place) : (r.update s p).bare = r.bare.update s p.bare := by
  simp [update, bare, index, Array.map_set]

theorem write?_bare (s : Nat) (slot : Slot) :
    r.bare.write? s slot.bare = (r.write? s slot).map bare := by
  simp only [write?, place_bare, Place.bare]
  split
  · rw [Option.map_some, update_bare]
    rfl
  · rfl

theorem claim_bare (s : Nat) (owns : Slot → Bool) (howns : ∀ slot, owns slot.bare = owns slot) :
    r.bare.claim s owns = (r.claim s owns).map Slot.bare bare := by
  simp only [claim, place_bare, Place.bare, howns]
  split
  · simp only [Prod.map, update_bare]
    rfl
  · rfl

theorem release_bare (s : Nat) : r.bare.release s = (r.release s).bare := by
  simp only [release, place_bare, update_bare]
  rfl

theorem abandon_bare (s : Nat) (readers : UInt64) :
    r.bare.abandon s readers = (r.abandon s readers).bare := by
  simp only [abandon, place_bare, Place.bare]
  split
  · rfl
  · split
    · rw [update_bare]
      rfl
    · rw [update_bare]
      rfl

end Ring

/-! ## Workers -/

/-- Where a handler stands, without contents. -/
def Stage.bare : Stage → Stage
  | idle => idle
  | received s => received s
  | claimed s slot => claimed s slot.bare
  | released s slot => released s slot.bare
  | dispatching s d plan => dispatching s d.bare plan.bare
  | waiting s d c mark rest => waiting s d.bare c.bare mark fun reply => (rest (c.reply reply)).bare
  | recorded s d report => recorded s d.bare report
  | ended => ended

namespace Worker

/-- A handler at work, without contents. -/
def bare (w : Worker) : Worker := { w with stage := w.stage.bare }

variable (w : Worker)

@[simp] theorem isGone_bare : w.bare.isGone = w.isGone := by
  obtain ⟨handler, inbox, stage⟩ := w
  cases stage <;> rfl

theorem withTally_bare (t : Tally) : w.bare.withTally t = (w.withTally t).bare := rfl

theorem follow_bare (s : Nat) (d : Delivery) (scene : Scene σ) (progress : Plan.Progress) :
    w.bare.follow s d.bare (scene.bare shows) progress.bare =
      (w.follow s d scene progress).map bare (Scene.bare shows) := by
  rcases progress with (outcome | crash | ⟨c, mark, rest⟩) | plan
  · rfl
  · simp only [Plan.Progress.bare, Plan.Ending.bare, follow, Prod.map, Handler.contain_bare]
    rfl
  · rfl
  · rfl

theorem begin_bare (s : Nat) (slot : Slot) (scene : Scene σ) :
    w.bare.begin s slot.bare (scene.bare shows) =
      (w.begin s slot scene).map bare (Scene.bare shows) := by
  simp only [begin, bare, Handler.see_bare]
  rcases w.handler.see s w.inbox.isEmpty scene with ⟨handler, scene'⟩
  simp only [Prod.map, handler.claim?_bare, id_eq]
  cases hclaim : handler.claim? slot with
  | none => rfl
  | some d =>
      simp only [Option.map_some, ← Plan.bare_dispatch]
      rfl

/-- What a step of a handler leaves, without contents. -/
def Advance.bare (shows : σ → τ) (next : Advance σ) : Advance τ where
  worker := next.worker.bare
  ring := next.ring.bare
  scene := next.scene.bare shows
  report := next.report

section Stages

variable {w : Worker}

theorem stage_bare {stage : Stage} (hs : w.stage = stage) : w.bare.stage = stage.bare :=
  congrArg Stage.bare hs

/-- A handler without contents takes the steps of the handler. -/
theorem advance_bare (w : Worker) (he : e.Blind shows) (closed : Bool) (ring : Ring)
    (scene : Scene σ) :
    w.bare.advance (e.bare shows) closed ring.bare (scene.bare shows) =
      (w.advance e closed ring scene).map (Advance.bare shows) := by
  cases hs : w.stage with
  | idle =>
      simp only [advance, hs, Stage.bare, bare]
      cases w.inbox with
      | nil => cases closed <;> rfl
      | cons s inbox => rfl
  | received s =>
      have hclaim := ring.claim_bare s w.handler.owns w.handler.owns_bare
      rw [advance_received hs, advance_received (stage_bare hs)]
      simp only [bare, hclaim, Prod.map]
      rfl
  | claimed s slot =>
      simp only [advance, hs, Stage.bare, bare, ring.release_bare]
      rfl
  | released s slot =>
      rw [advance_released hs, advance_released (stage_bare hs), begin_bare]
      rfl
  | dispatching s d plan =>
      have hstep := Plan.step_bare he plan w.handler.tally scene
      have htally : w.bare.handler.tally = w.handler.tally := rfl
      rw [advance_dispatching hs, advance_dispatching (stage_bare hs), htally, hstep]
      simp only [Prod.map, id_eq, withTally_bare, follow_bare]
      rfl
  | waiting s d c mark rest =>
      have hlate := scene.callLate_bare he c mark
      rw [advance_waiting hs, advance_waiting (stage_bare hs)]
      rcases ha : scene.callLate e c mark with _ | ⟨result, scene'⟩ <;>
        rcases hb : (scene.bare shows).callLate (e.bare shows) c.bare mark with
          _ | ⟨result', bared⟩ <;>
        simp only [ha, hb, Option.map_some, Option.map_none, Prod.map, id_eq, reduceCtorEq,
          Option.some.injEq, Prod.mk.injEq] at hlate
      · rfl
      · obtain ⟨rfl, rfl⟩ := hlate
        simp only [Option.map_some, ← Plan.Progress.bare_ofResult, follow_bare]
        rfl
  | recorded s d report =>
      simp only [advance, hs, stage_bare hs, Stage.bare]
      rfl
  | ended =>
      simp only [advance, hs, stage_bare hs, Stage.bare]
      rfl

end Stages

end Worker

/-! ## Pools -/

/-- What is left to do for a publisher, without contents. -/
def Publishing.bare : Publishing → Publishing
  | writing slot => writing slot.bare
  | announcing s told => announcing s told

/-- A publisher without contents. -/
def Publisher.bare (x : Publisher) : Publisher := { x with stage := x.stage.bare }

namespace Pool

/-- A pool without contents. -/
def bare (p : Pool) : Pool :=
  { p with
    ring := p.ring.bare
    workers := p.workers.map Worker.bare
    waiting := p.waiting.map (Prod.map id Slot.bare)
    holder := p.holder.map Publisher.bare }

variable (p : Pool)

@[simp] theorem tallies_bare : p.bare.tallies = p.tallies := by
  simp only [tallies, bare, List.map_map]
  rfl

@[simp] theorem pending_bare : p.bare.pending = p.pending := by
  simp only [pending, bare, List.map_map, Option.map_map]
  rfl

theorem new_bare (config : Config) (reporting : Bool) :
    (Pool.new config reporting).bare = .new config reporting := by
  simp [bare, new, Ring.bare, Ring.new, Place.bare, Slot.bare, Slot.empty, Worker.bare, Stage.bare]

theorem publish_bare (slot : Slot) : p.bare.publish slot.bare = (p.publish slot).bare := by
  unfold publish
  cases hrunning : p.running with
  | true => simp [bare, hrunning]
  | false => simp [bare, hrunning]

theorem find?_bare (ticket : Nat) :
    p.bare.waiting.find? (·.1 = ticket) =
      (p.waiting.find? (·.1 = ticket)).map (Prod.map id Slot.bare) := by
  simp only [bare, List.find?_map]
  rfl

theorem filter_bare (ticket : Nat) :
    p.bare.waiting.filter (·.1 ≠ ticket) =
      (p.waiting.filter (·.1 ≠ ticket)).map (Prod.map id Slot.bare) := by
  simp only [bare, List.filter_map]
  rfl

theorem acquire_bare (ticket : Nat) : p.bare.acquire ticket = (p.acquire ticket).map bare := by
  have hfound := p.find?_bare ticket
  cases hholder : p.holder with
  | some x =>
      have hbare : p.bare.holder = some x.bare := by simp [bare, hholder]
      simp only [acquire, hholder, hbare, Option.map_none]
  | none =>
      have hbare : p.bare.holder = none := by simp [bare, hholder]
      cases hfind : p.waiting.find? (·.1 = ticket) with
      | none =>
          rw [hfind] at hfound
          simp only [acquire, hholder, hbare, hfind, hfound, Option.map_none]
      | some x =>
          rw [hfind] at hfound
          simp only [acquire, hholder, hbare, hfind, hfound, filter_bare, Option.map_some]
          rfl

theorem write_bare (ticket : Nat) (slot : Slot) :
    p.bare.write ticket slot.bare = (p.write ticket slot).map bare := by
  have hwrite : p.bare.ring.write? p.bare.next slot.bare = (p.ring.write? p.next slot).map .bare :=
    p.ring.write?_bare p.next slot
  simp only [write, hwrite, Option.map_map]
  rfl

theorem getElem?_workers_bare (i : Nat) :
    p.bare.workers[i]? = p.workers[i]?.map Worker.bare := by
  simp [bare]

theorem announce_bare (scene : Scene σ) (ticket s told : Nat) :
    p.bare.announce (scene.bare shows) ticket s told =
      (p.announce scene ticket s told).map (Prod.map bare (Scene.bare shows)) := by
  have hlength : p.bare.workers.length = p.workers.length := List.length_map _
  simp only [announce, getElem?_workers_bare, hlength]
  cases p.workers[told]? with
  | none => rfl
  | some w =>
      simp only [Option.map_some, Worker.isGone_bare]
      cases w.isGone with
      | true =>
          simp only [if_true, Option.map_some, Prod.map, scene.log_bare]
          simp [bare, finish, Ring.abandon_bare]
      | false =>
          have hcapacity : p.bare.ring.capacity = p.ring.capacity := p.ring.capacity_bare
          have hinbox : w.bare.inbox = w.inbox := rfl
          simp only [Bool.false_eq_true, if_false, hcapacity, hinbox]
          split
          · simp [bare, Publisher.bare, Publishing.bare, List.map_set]
            rfl
          · rfl

theorem proceed_bare (scene : Scene σ) :
    p.bare.proceed (scene.bare shows) =
      (p.proceed scene).map (Prod.map bare (Scene.bare shows)) := by
  unfold proceed
  rcases hholder : p.holder with _ | ⟨ticket, slot | ⟨s, told⟩⟩
  · simp [bare, hholder]
  · have hbare : p.bare.holder = some ⟨ticket, .writing slot.bare⟩ := by
      simp [bare, hholder, Publisher.bare, Publishing.bare]
    simp only [hbare, write_bare, Option.map_map]
    rfl
  · have hbare : p.bare.holder = some ⟨ticket, .announcing s told⟩ := by
      simp [bare, hholder, Publisher.bare, Publishing.bare]
    simp only [hbare, announce_bare]

theorem withdraw_bare (ticket : Nat) :
    cancel.withdraw p.bare ticket = (cancel.withdraw p ticket).map bare := by
  have hany : p.bare.waiting.any (·.1 = ticket) = p.waiting.any (·.1 = ticket) := by
    simp only [bare, List.any_map]
    rfl
  simp only [cancel.withdraw, hany, filter_bare]
  split <;> rfl

theorem cancel_bare (ticket : Nat) : p.bare.cancel ticket = (p.cancel ticket).map bare := by
  rcases hholder : p.holder with _ | ⟨holder, slot | ⟨s, told⟩⟩
  · have hbare : p.bare.holder = none := by simp [bare, hholder]
    simp only [cancel, hholder, hbare, withdraw_bare]
  · have hbare : p.bare.holder = some ⟨holder, .writing slot.bare⟩ := by
      simp [bare, hholder, Publisher.bare, Publishing.bare]
    simp only [cancel, hholder, hbare, withdraw_bare]
    split <;> rfl
  · have hbare : p.bare.holder = some ⟨holder, .announcing s told⟩ := by
      simp [bare, hholder, Publisher.bare, Publishing.bare]
    simp only [cancel, hholder, hbare, withdraw_bare]

theorem advance_bare (he : e.Blind shows) (scene : Scene σ) (ordinal : Nat) :
    p.bare.advance (e.bare shows) (scene.bare shows) ordinal =
      (p.advance e scene ordinal).map (Prod.map bare (Scene.bare shows)) := by
  simp only [advance, getElem?_workers_bare]
  cases p.workers[ordinal]? with
  | none => rfl
  | some w =>
      have hstep := w.advance_bare he p.closed p.ring scene
      have hclosed : p.bare.closed = p.closed := rfl
      have hring : p.bare.ring = p.ring.bare := rfl
      simp only [Option.map_some, Option.bind_eq_bind, Option.bind_some, hclosed, hring, hstep]
      cases w.advance e p.closed p.ring scene with
      | none => rfl
      | some next =>
          simp [bare, Worker.Advance.bare, List.map_set]
          rfl

theorem stop_bare (ordinal : Nat) : p.bare.stop ordinal = (p.stop ordinal).map bare := by
  simp only [stop, getElem?_workers_bare]
  cases p.workers[ordinal]? with
  | none => rfl
  | some w =>
      simp [bare, List.map_set]
      rfl

theorem close_bare : p.bare.close = p.close.map bare := by
  simp only [close, pending_bare]
  split <;> rfl

end Pool

/-! ## Floors -/

/-- An action without content. -/
def Action.bare : Action → Action
  | publish slot => publish slot.bare
  | a => a

/-- What is done, without contents. -/
def Deed.bare : Deed → Deed
  | came ticket slot => came ticket slot.bare
  | wrote ticket s slot => wrote ticket s slot.bare
  | claimed i s slot => claimed i s slot.bare
  | begun i s slot => begun i s slot.bare
  | called i s d c => called i s d.bare c.bare
  | x => x

/-- What is done when a handler goes from one stage to another names no more than the stages do. -/
theorem Stage.deeds_bare (i : Nat) (before after : Stage) :
    before.bare.deeds i after.bare = (before.deeds i after).map Deed.bare := by
  have hrecording : after.bare.recording i = (after.recording i).map Deed.bare := by
    cases after <;> rfl
  cases before with
  | dispatching s d plan =>
      cases plan with
      | call c rest => exact congrArg (.called i s d.bare c.bare :: ·) hrecording
      | _ => exact hrecording
  | waiting s d c mark rest => exact hrecording
  | _ => cases after <;> rfl

namespace Floor

/-- A floor without contents. -/
def bare (shows : σ → τ) (f : Floor σ) : Floor τ := ⟨f.pool.bare, f.scene.bare shows⟩

variable (f g : Floor σ)

theorem opening_bare (config : Config) (reporting : Bool) (scene : Scene σ) :
    (opening config reporting scene).bare shows = opening config reporting (scene.bare shows) := by
  simp only [opening, bare, Pool.new_bare]

/-- A floor without contents takes the steps of the floor. -/
theorem act_bare (he : e.Blind shows) (a : Action) :
    (f.bare shows).act (e.bare shows) a.bare = (f.act e a).map (bare shows) := by
  cases a with
  | publish slot =>
      simp only [act, Action.bare, bare, Pool.publish_bare]
      rfl
  | acquire ticket =>
      simp only [act, Action.bare, bare, Pool.acquire_bare, Option.map_map]
      rfl
  | proceed =>
      simp only [act, Action.bare, bare, Pool.proceed_bare, Option.map_map]
      rfl
  | cancel ticket =>
      simp only [act, Action.bare, bare, Pool.cancel_bare, Option.map_map]
      rfl
  | advance ordinal =>
      simp only [act, Action.bare, bare, Pool.advance_bare _ he, Option.map_map]
      rfl
  | stop ordinal =>
      simp only [act, Action.bare, bare, Pool.stop_bare, Option.map_map]
      rfl
  | close =>
      simp only [act, Action.bare, bare, Pool.close_bare, Option.map_map]
      rfl
  | join =>
      have hgone : f.pool.bare.workers.all Worker.isGone = f.pool.workers.all Worker.isGone := by
        simp [Pool.bare, List.all_map, Function.comp_def]
      have hclosed : f.pool.bare.closed = f.pool.closed := rfl
      simp only [act, Action.bare, bare, hgone, hclosed]
      split
      · simp only [Option.map_some, bare, f.scene.log_bare]
      · rfl

theorem announcements_bare :
    announcements (f.bare shows) (g.bare shows) = (announcements f g).map Deed.bare := by
  have hlength : f.pool.bare.workers.length = f.pool.workers.length := List.length_map _
  rcases hf : f.pool.holder with _ | ⟨ticket, slot | ⟨s, told⟩⟩ <;>
    rcases hg : g.pool.holder with _ | ⟨ticket', stage⟩ <;>
    simp only [announcements, bare, Pool.bare, hf, hg, Option.map_some, Option.map_none,
      Publisher.bare, Publishing.bare, List.map_cons, List.map_nil, Deed.bare, List.length_map]
  split <;> rfl

/-- What an action does names no more than the action and the floors do. -/
theorem deeds_bare (a : Action) :
    (f.bare shows).deeds a.bare (g.bare shows) = (f.deeds a g).map Deed.bare := by
  cases a with
  | proceed => exact announcements_bare f g
  | advance i =>
      simp only [deeds, Action.bare, bare, Pool.getElem?_workers_bare]
      cases f.pool.workers[i]? with
      | none => rfl
      | some w =>
          cases g.pool.workers[i]? with
          | none => rfl
          | some w' => exact Stage.deeds_bare i w.stage w'.stage
  | _ => rfl

end Floor

/-! ## Schedules -/

/-- What happens next in a schedule: an action, or the outside leaves the site like this. -/
inductive Happening (σ : Type) where
  | act (a : Action)
  | meanwhile (site : Site σ)

/-- What happens, without contents. -/
def Happening.bare (shows : σ → τ) : Happening σ → Happening τ
  | act a => act a.bare
  | meanwhile site => meanwhile (site.bare shows)

/-- Keeps to a schedule, if all of it is possible, and keeps the trail. -/
def Floor.play (e : Environment σ) (f : Floor σ) : List (Happening σ) → Option (Trail × Floor σ)
  | [] => some ([], f)
  | .act a :: schedule => do
      let g ← f.act e a
      let (deeds, last) ← g.play e schedule
      return (f.deeds a g ++ deeds, last)
  | .meanwhile site :: schedule => { f with scene := f.scene.moveTo site }.play e schedule

namespace Run

variable {start f : Floor σ} {past : Trail}

theorem append_play (h : Run e (fun _ _ => True) start past f) {schedule : List (Happening σ)}
    {deeds : Trail} {last : Floor σ} (hp : f.play e schedule = some (deeds, last)) :
    Run e (fun _ _ => True) start (past ++ deeds) last := by
  induction schedule generalizing past f deeds with
  | nil =>
      simp only [Floor.play, Option.some.injEq, Prod.mk.injEq] at hp
      obtain ⟨rfl, rfl⟩ := hp
      simpa using h
  | cons x schedule ih =>
      cases x with
      | act a =>
          simp only [Floor.play, Option.bind_eq_bind, Option.bind_eq_some_iff, Option.pure_def,
            Option.some.injEq, Prod.mk.injEq, Prod.exists] at hp
          obtain ⟨g, hg, later, last', hlater, rfl, rfl⟩ := hp
          rw [← List.append_assoc]
          exact ih (h.act hg) hlater
      | meanwhile site => exact ih (h.meanwhile trivial) hp

end Run

namespace Floor

theorem play_append (f : Floor σ) (schedule later : List (Happening σ)) :
    f.play e (schedule ++ later) = (f.play e schedule).bind fun (past, g) =>
      (g.play e later).map fun (deeds, last) => (past ++ deeds, last) := by
  induction schedule generalizing f with
  | nil => simp [play]
  | cons x schedule ih =>
      cases x with
      | act a =>
          simp only [List.cons_append, play, ih]
          cases f.act e a with
          | none => rfl
          | some g =>
              simp only [Option.bind_eq_bind, Option.bind_some]
              cases g.play e schedule with
              | none => rfl
              | some r => simp [Option.map_eq_bind, Option.bind_assoc]
      | meanwhile site => exact ih { f with scene := f.scene.moveTo site }

/-- The runs of a pool are those of its schedules. -/
theorem run_iff_play {start f : Floor σ} {past : Trail} :
    Run e (fun _ _ => True) start past f ↔ ∃ schedule, start.play e schedule = some (past, f) := by
  refine ⟨fun h => ?_, fun ⟨_, hp⟩ => .append_play .start hp⟩
  induction h with
  | start => exact ⟨[], rfl⟩
  | @act past f a g hrun hact ih =>
      obtain ⟨schedule, hp⟩ := ih
      refine ⟨schedule ++ [.act a], ?_⟩
      simp [play_append, hp, play, hact]
  | @meanwhile past f site hrun hrely ih =>
      obtain ⟨schedule, hp⟩ := ih
      refine ⟨schedule ++ [.meanwhile site], ?_⟩
      simp [play_append, hp, play]

/-- Without contents, a schedule leads to the same floor without contents. -/
theorem play_bare (he : e.Blind shows) (f : Floor σ) (schedule : List (Happening σ)) :
    (f.bare shows).play (e.bare shows) (schedule.map (.bare shows)) =
      (f.play e schedule).map (Prod.map (List.map Deed.bare) (bare shows)) := by
  induction schedule generalizing f with
  | nil => rfl
  | cons x schedule ih =>
      cases x with
      | act a =>
          simp only [List.map_cons, Happening.bare, play, f.act_bare he]
          cases f.act e a with
          | none => rfl
          | some g =>
              simp only [Option.map_some, Option.bind_eq_bind, Option.bind_some, ih, deeds_bare]
              cases g.play e schedule with
              | none => rfl
              | some r => simp
      | meanwhile site => exact ih { f with scene := f.scene.moveTo site }

/-- Two floors that differ in nothing but contents. -/
structure Matches (shows : σ → τ) (f f' : Floor σ) : Prop where
  /-- The publishers are told the same sequences. -/
  results : f.pool.results = f'.pool.results
  reports : f.pool.reports = f'.pool.reports
  tallies : f.pool.tallies = f'.pool.tallies
  pool : f.pool.bare = f'.pool.bare
  scene : f.scene.Matches shows f'.scene

theorem matches_of_bare {f f' : Floor σ} (h : f.bare shows = f'.bare shows) :
    f.Matches shows f' where
  results := (congrArg (·.pool.results) h :)
  reports := (congrArg (·.pool.reports) h :)
  tallies := by
    rw [← f.pool.tallies_bare, ← f'.pool.tallies_bare]
    exact congrArg (·.pool.tallies) h
  pool := congrArg Floor.pool h
  scene := Scene.matches_of_bare (congrArg Floor.scene h)

/-- A schedule with other contents leads to the same floor but for contents, along the same trail
but for contents. -/
theorem exists_play_matches (he : e.Blind shows) {f f' : Floor σ}
    (hf : f.bare shows = f'.bare shows) {schedule schedule' : List (Happening σ)}
    (hs : schedule.map (Happening.bare shows) = schedule'.map (Happening.bare shows))
    {past : Trail} {g : Floor σ} (hp : f.play e schedule = some (past, g)) :
    ∃ past' g', f'.play e schedule' = some (past', g') ∧
      past.map Deed.bare = past'.map Deed.bare ∧ g.Matches shows g' := by
  -- both schedules have one bare form, which leads to the bare forms of both floors
  have hplays := play_bare he f schedule
  rw [hf, hs, play_bare he, hp, Option.map_some, Option.map_eq_some_iff] at hplays
  obtain ⟨⟨past', g'⟩, hp', hpair⟩ := hplays
  simp only [Prod.map, Prod.mk.injEq] at hpair
  exact ⟨past', g', hp', hpair.1.symm, matches_of_bare hpair.2.symm⟩

end Floor

/-! ## Integrity -/

/-- Whatever is sent under a sequence is what a publisher came with and wrote under it. -/
def Trail.Intact (past : Trail) : Prop :=
  ∀ s d, (s, .send d) ∈ past.calls → ∃ ticket slot, .came ticket slot ∈ past ∧
    .wrote ticket s slot ∈ past ∧ past.events[s]? = some slot ∧ slot.delivery = some d

theorem Run.intact {rely : Site σ → Site σ → Prop} {config : Config} {reporting : Bool}
    {scene : Scene σ} {past : Trail} {f : Floor σ}
    (h : Run e rely (.opening config reporting scene) past f) : past.Intact := by
  intro s d hsend
  simp only [Trail.calls, List.mem_filterMap] at hsend
  obtain ⟨x, hx, hcall⟩ := hsend
  cases x with
  | called i s' d' c =>
      simp only [Deed.call?, Option.some.injEq, Prod.mk.injEq] at hcall
      obtain ⟨rfl, rfl⟩ := hcall
      obtain rfl : d = d' := h.orderly.own i s' d' (.send d) hx d rfl
      -- whatever a handler holds under a sequence is its share of the event of that sequence
      obtain ⟨slot, hevent, hd, -⟩ := h.sound.shared.deeds _ hx
      obtain ⟨ticket, hwrote⟩ := h.ticketed.event s' slot hevent
      exact ⟨ticket, slot, (h.ticketed.wrote ticket s' slot hwrote).1, hwrote, hevent, hd⟩
  | _ => simp [Deed.call?] at hcall

/-- What contents cannot do. -/
structure Environment.Seals (e : Environment σ) (shows : σ → τ) : Prop where
  /-- If a pool can keep to a schedule, it can keep to it with other contents, and nothing else
  comes out different. -/
  runs : ∀ config reporting (scene scene' : Scene σ) (schedule schedule' : List (Happening σ))
    past f, scene.bare shows = scene'.bare shows →
    schedule.map (Happening.bare shows) = schedule'.map (Happening.bare shows) →
    (Floor.opening config reporting scene).play e schedule = some (past, f) →
    ∃ past' f', (Floor.opening config reporting scene').play e schedule' = some (past', f') ∧
      past.map Deed.bare = past'.map Deed.bare ∧ f.Matches shows f'
  /-- Every send of a run is on its trail, and sends what was published under its sequence. -/
  sends : ∀ config reporting (scene : Scene σ) (schedule : List (Happening σ)) past f,
    (Floor.opening config reporting scene).play e schedule = some (past, f) →
    f.scene.calls = scene.calls ++ past.calls.map Prod.snd ∧ past.Intact
  /-- A handler that is shown events, one after another, takes the same turns with other
  contents. -/
  turns : ∀ (h : Handler) (s s' : Scene σ) (before before' : List Event) (x x' : Event),
    s.bare shows = s'.bare shows → before.map Event.bare = before'.map Event.bare →
    x.bare = x'.bare →
    (h.attendAfter e s before x).Matches shows (h.attendAfter e s' before' x')
  /-- Every send of a turn sends what the handler is shown in that turn. -/
  shown : ∀ (h : Handler) (s : Scene σ) (before : List Event) (x : Event),
    ∃ calls, (h.attendAfter e s before x).scene.calls = (h.attendAll e s before).2.calls ++ calls ∧
      ∀ d, .send d ∈ calls → x.slot.delivery = some d

/-- With callees that do the same whatever the contents, contents make no difference, and each
arrives where it was sent. -/
theorem Environment.Blind.seals (h : e.Blind shows) : e.Seals shows where
  runs config reporting scene scene' schedule schedule' past f hscene hschedule hp := by
    refine Floor.exists_play_matches h ?_ hschedule hp
    rw [Floor.opening_bare, Floor.opening_bare, hscene]
  sends config reporting scene schedule past f hp := by
    have hrun := Floor.run_iff_play.mpr ⟨schedule, hp⟩
    exact ⟨hrun.calls_eq, hrun.intact⟩
  turns h' s s' before before' x x' hs hbefore hx := h'.attendAfter_matches h hs hbefore hx
  shown h' s before x := Handler.sends_attend _ e x _

namespace Rehearsal

/-- The rehearsal with other contents. -/
def schedule (content : Content) : List (Happening Scripted.Cast) :=
  (relay.map fun
    | .publish slot => .publish { slot with delivery := slot.delivery.map ({ · with content }) }
    | a => a).map .act

theorem schedule_bare (content content' : Content) :
    (schedule content).map (Happening.bare id) = (schedule content').map (Happening.bare id) := by
  simp only [schedule, List.map_map]
  refine List.map_congr_left fun a _ => ?_
  cases a with
  | publish slot =>
      obtain ⟨_ | d, failed⟩ := slot
      · rfl
      · rfl
  | _ => rfl

end Rehearsal

/-- Two pools keep to the same schedule and send different contents. Nothing else is different. -/
theorem Environment.Blind.seals_rehearsal : ∃ past f past' f',
    Rehearsal.opening.play (Scripted.environment false) (Rehearsal.schedule ⟨[1]⟩) =
      some (past, f) ∧
    Rehearsal.opening.play (Scripted.environment false) (Rehearsal.schedule ⟨[2, 3]⟩) =
      some (past', f') ∧
    f.scene.calls.filterMap Call.send? =
      [1, 0, 2, 3].map (fun n => { Rehearsal.event n with content := ⟨[1]⟩ }) ∧
    f'.scene.calls.filterMap Call.send? =
      [1, 0, 2, 3].map (fun n => { Rehearsal.event n with content := ⟨[2, 3]⟩ }) ∧
    f.Matches id f' ∧ past.Intact ∧ past'.Intact ∧ (Scripted.environment false).Seals id := by
  have hseals := Environment.Blind.seals (Scripted.blind false)
  have hend : (Rehearsal.opening.play (Scripted.environment false) (Rehearsal.schedule ⟨[1]⟩)).any
      fun (_, f) => f.scene.calls.filterMap Call.send? =
        [1, 0, 2, 3].map fun n => { Rehearsal.event n with content := ⟨[1]⟩ } := by
    decide +kernel
  have hend' : (Rehearsal.opening.play (Scripted.environment false)
      (Rehearsal.schedule ⟨[2, 3]⟩)).any fun (_, f) => f.scene.calls.filterMap Call.send? =
        [1, 0, 2, 3].map fun n => { Rehearsal.event n with content := ⟨[2, 3]⟩ } := by
    decide +kernel
  obtain ⟨⟨past, f⟩, hp, hsend⟩ := (Option.any_eq_true _ _).mp hend
  obtain ⟨⟨past', f'⟩, hp', hsend'⟩ := (Option.any_eq_true _ _).mp hend'
  obtain ⟨past'', f'', hp'', -, hmatches⟩ := hseals.runs _ _ _ _ _ _ _ _ rfl
    (Rehearsal.schedule_bare ⟨[1]⟩ ⟨[2, 3]⟩) hp
  obtain ⟨rfl, rfl⟩ := Prod.mk.inj (Option.some.inj (hp'.symm.trans hp''))
  exact ⟨past, f, past', f', hp, hp', of_decide_eq_true hsend, of_decide_eq_true hsend', hmatches,
    (hseals.sends _ _ _ _ _ _ hp).2, (hseals.sends _ _ _ _ _ _ hp').2, hseals⟩

end ShardedDelivery
