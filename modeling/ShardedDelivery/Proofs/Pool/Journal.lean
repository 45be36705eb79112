import ShardedDelivery.Proofs.Pool.Positions
import ShardedDelivery.Proofs.Scene

/-! # The journal and the reports

Everything that the outside sees of a run is on its trail: the calls that it is asked for, and the
reports that it is sent, in the same order. -/

namespace ShardedDelivery

/-- The sequence for which a call is made, and the call. -/
def Deed.call? : Deed → Option (Nat × Call)
  | .called _ s _ c => some (s, c)
  | _ => none

/-- The sequence of a report that is sent, and the report. -/
def Deed.report? : Deed → Option (Nat × Report)
  | .reported _ s report => some (s, report)
  | _ => none

namespace Trail

/-- The calls, each with the sequence that it is made for. -/
def calls (past : Trail) : List (Nat × Call) := past.filterMap Deed.call?

/-- The reports, each with its sequence. -/
def reports (past : Trail) : List (Nat × Report) := past.filterMap Deed.report?

@[simp] theorem calls_append (past deeds : Trail) :
    calls (past ++ deeds) = calls past ++ calls deeds :=
  List.filterMap_append

@[simp] theorem reports_append (past deeds : Trail) :
    reports (past ++ deeds) = reports past ++ reports deeds :=
  List.filterMap_append

@[simp] theorem calls_recording (i : Nat) (stage : Stage) : calls (stage.recording i) = [] := by
  cases stage <;> rfl

@[simp] theorem reports_recording (i : Nat) (stage : Stage) : reports (stage.recording i) = [] := by
  cases stage <;> rfl

@[simp] theorem calls_calls (i s : Nat) (d : Delivery) (cs : List Call) :
    calls (cs.map (.called i s d)) = cs.map (s, ·) := by
  simp [calls, List.filterMap_map, Function.comp_def, Deed.call?]

@[simp] theorem reports_calls (i s : Nat) (d : Delivery) (cs : List Call) :
    reports (cs.map (.called i s d)) = [] := by
  simp [reports, Deed.report?]

end Trail

variable {σ : Type} {e : Environment σ}

/-! ## Calls -/

namespace Worker

variable {w : Worker} {closed : Bool} {ring : Ring} {scene : Scene σ}

theorem calls_follow (w : Worker) (s : Nat) (d : Delivery) (scene : Scene σ)
    (progress : Plan.Progress) : (w.follow s d scene progress).2.calls = scene.calls := by
  cases progress with
  | going plan => rfl
  | ended ending => cases ending <;> simp [follow, Handler.contain]

theorem calls_begin (w : Worker) (s : Nat) (slot : Slot) (scene : Scene σ) :
    (w.begin s slot scene).2.calls = scene.calls := by
  have hsee := w.handler.calls_see s w.inbox.isEmpty scene
  unfold begin
  rcases hs : w.handler.see s w.inbox.isEmpty scene with ⟨handler, scene'⟩
  rw [hs] at hsee
  simp only
  split <;> exact hsee

/-- The calls that a handler makes in a step are noted. -/
theorem calls_advance {next : Advance σ} (i : Nat)
    (h : w.advance e closed ring scene = some next) :
    next.scene.calls =
      scene.calls ++ (Trail.calls (w.stage.deeds i next.worker.stage)).map Prod.snd := by
  cases hs : w.stage with
  | idle =>
      simp only [advance, hs] at h
      split at h
      · cases h
        simp [Stage.deeds, Trail.calls, Deed.call?]
      · split at h
        · cases h
          simp [Stage.deeds, Trail.calls, stop]
        · contradiction
  | received s =>
      rw [advance_received hs, Option.some.injEq] at h
      subst h
      simp [Stage.deeds, Trail.calls, Deed.call?]
  | claimed s slot =>
      simp only [advance, hs, Option.some.injEq] at h
      subst h
      simp [Stage.deeds, Trail.calls, Deed.call?]
  | released s slot =>
      rw [advance_released hs, Option.some.injEq] at h
      subst h
      have hnone : Trail.calls ((Stage.released s slot).deeds i (w.begin s slot scene).1.stage)
          = [] := by
        cases hc : w.handler.claim? slot with
        | none => simp [begin_of_none s scene hc, Stage.deeds, Trail.calls, Deed.call?]
        | some d => simp [begin_of_some s scene hc, Stage.deeds, Trail.calls, Deed.call?]
      simp [hnone, calls_begin]
  | dispatching s d plan =>
      rw [advance_dispatching hs, Option.some.injEq] at h
      subst h
      simp [Stage.deeds_dispatching, calls_follow, Plan.calls_step, Function.comp_def]
  | waiting s d c mark rest =>
      rw [advance_waiting hs, Option.map_eq_some_iff] at h
      obtain ⟨⟨result, scene'⟩, hlate, rfl⟩ := h
      simp [Stage.deeds, calls_follow, scene.calls_callLate c hlate]
  | recorded s d report =>
      simp only [advance, hs, Option.some.injEq] at h
      subst h
      simp [Stage.deeds, Trail.calls, Deed.call?]
  | ended =>
      simp only [advance, hs] at h
      contradiction

end Worker

namespace Floor

variable {f g : Floor σ}

theorem calls_announcements : Trail.calls (announcements f g) = [] := by
  unfold announcements
  split
  · rfl
  · rfl
  · split <;> rfl
  · rfl

/-- The calls that are made in an action are noted. -/
theorem calls_act {a : Action} (h : f.act e a = some g) :
    g.scene.calls = f.scene.calls ++ (Trail.calls (f.deeds a g)).map Prod.snd := by
  cases a with
  | publish slot =>
      cases h
      simp [deeds, Trail.calls, Deed.call?]
  | acquire ticket =>
      obtain ⟨q, -, rfl⟩ := Option.map_eq_some_iff.mp h
      simp [deeds, Trail.calls]
  | proceed =>
      obtain ⟨⟨q, scene⟩, hq, rfl⟩ := Option.map_eq_some_iff.mp h
      have hscene : scene.calls = f.scene.calls := by
        rcases (Pool.proceed_eq_some hq).1 with rfl | ⟨line, rfl⟩
        · rfl
        · exact f.scene.calls_log line
      simp [deeds, calls_announcements, hscene]
  | cancel ticket =>
      obtain ⟨q, -, rfl⟩ := Option.map_eq_some_iff.mp h
      simp [deeds, Trail.calls]
  | advance i =>
      obtain ⟨⟨q, scene⟩, hq, rfl⟩ := Option.map_eq_some_iff.mp h
      obtain ⟨w, next, hw, hnext, rfl, rfl⟩ := Pool.advance_eq_some hq
      have hw' : (f.pool.workers.set i next.worker)[i]? = some next.worker :=
        getElem?_set_self_of_some hw
      simp only [deeds, hw, hw']
      exact Worker.calls_advance i hnext
  | stop i =>
      obtain ⟨q, -, rfl⟩ := Option.map_eq_some_iff.mp h
      simp [deeds, Trail.calls, Deed.call?]
  | close =>
      obtain ⟨q, -, rfl⟩ := Option.map_eq_some_iff.mp h
      simp [deeds, Trail.calls]
  | join =>
      obtain rfl := join_of_act h
      simp [deeds, Trail.calls]

end Floor

/-- The calls of a run are those on its trail. -/
theorem Run.calls_eq {rely : Site σ → Site σ → Prop} {start f : Floor σ} {past : Trail}
    (h : Run e rely start past f) :
    f.scene.calls = start.scene.calls ++ past.calls.map Prod.snd := by
  induction h with
  | start => simp [Trail.calls]
  | act hrun hact ih => rw [Floor.calls_act hact, ih, Trail.calls_append, List.map_append,
      List.append_assoc]
  | meanwhile hrun hrely ih => exact ih

/-! ## Reports -/

theorem Worker.Turn.reports_eq {i : Nat} {closed : Bool} {w w' : Worker} {ring ring' : Ring}
    {deeds : List Deed} {report : Option Report}
    (h : w.Turn i closed ring deeds w' ring' report) :
    report.toList = (Trail.reports deeds).map Prod.snd := by
  cases h with
  | work s d handler stage calls hs hn hb hh hc hr hk => simp
  | _ => simp [Trail.reports, Deed.report?]

theorem Pool.Move.reports_eq {p q : Pool} {deeds : Trail} (h : p.Move deeds q) :
    q.reporting = p.reporting ∧ q.reports =
      if p.reporting then p.reports ++ (Trail.reports deeds).map Prod.snd else p.reports := by
  cases h with
  | come slot =>
      obtain ⟨waiting, results, heq, -⟩ := p.publish_eq slot
      simp [heq, Trail.reports, Deed.report?]
  | turn i w _ w' ring report reports hw ht hr => exact ⟨rfl, by rw [hr, ht.reports_eq]⟩
  | _ => simp [Trail.reports, Deed.report?, Pool.finish]

/-- The reports of a run are those on its trail, if reports are kept. -/
theorem Run.reports_eq {rely : Site σ → Site σ → Prop} {config : Config} {reporting : Bool}
    {scene : Scene σ} {f : Floor σ} {past : Trail}
    (h : Run e rely (.opening config reporting scene) past f) :
    f.pool.reports = if reporting then past.reports.map Prod.snd else [] := by
  have hboth : f.pool.reporting = reporting ∧
      f.pool.reports = if reporting then past.reports.map Prod.snd else [] := by
    refine h.invariant
      (I := fun p past => p.reporting = reporting ∧
        p.reports = if reporting then past.reports.map Prod.snd else []) ?_ ?_
    · simp [Floor.opening, Pool.new, Trail.reports]
    · rintro p past deeds q ⟨hp, hreports⟩ hm
      obtain ⟨hq, hnew⟩ := hm.reports_eq
      refine ⟨hq.trans hp, ?_⟩
      rw [hnew, hp, hreports]
      split <;> simp
  exact hboth.2

end ShardedDelivery
