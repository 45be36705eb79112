import ShardedDelivery.Proofs.Plan.Lockstep
import ShardedDelivery.Proofs.Pool.Journal

/-! # A handler on its own

A handler that serves all channels is shown one event after another. What it does for each of them
is the run of one plan, and concerns nobody but the delivery. -/

namespace ShardedDelivery

/-- What the outside gets of a delivery: a call, or the report. -/
inductive Effect where
  | call (sequence : Nat) (channel : ChannelId) (c : Call)
  | report (sequence : Nat) (report : Report)
deriving DecidableEq

namespace Effect

def channel : Effect → ChannelId
  | call _ c _ => c
  | report _ r => r.channel

def call? : Effect → Option Call
  | call _ _ c => some c
  | _ => none

def report? : Effect → Option Report
  | report _ r => some r
  | _ => none

/-- With the same effects on each channel, all effects are the same but for their order. -/
theorem perm_of_channels {l l' : List Effect}
    (h : ∀ ch, l.filter (·.channel = ch) = l'.filter (·.channel = ch)) : l.Perm l' := by
  rw [List.perm_iff_count]
  intro x
  have hcount := congrArg (List.count x) (h x.channel)
  rwa [List.count_filter (by simp), List.count_filter (by simp)] at hcount

/-- The reports of a channel are among its effects. -/
theorem filter_reports (l : List Effect) (ch : ChannelId) :
    (l.filterMap report?).filter (·.channel = ch) =
      (l.filter (·.channel = ch)).filterMap report? := by
  rw [List.filter_filterMap, List.filterMap_filter]
  refine List.filterMap_congr fun x _ => ?_
  cases x with
  | call s c call => simp only [report?, Option.filter_none, ite_self]
  | report s r => by_cases hr : r.channel = ch <;> simp [report?, channel, hr]

end Effect

/-- A handler on its own, its scene, the next sequence, and what the outside got so far. -/
structure Solo (σ : Type) where
  handler : Handler
  scene : Scene σ
  sequence : Nat := 0
  effects : List Effect := []

namespace Solo

variable {σ : Type}

/-- A new handler that serves all channels. -/
def alone (queue : String) (scene : Scene σ) : Solo σ where
  handler := .new 0 1 queue
  scene

/-- Shows the handler the next event. The flags say which events end a batch. -/
def handle (e : Environment σ) (last : Nat → Bool) (x : Solo σ) (slot : Slot) : Solo σ :=
  let turn := x.handler.handle e slot x.sequence (last x.sequence) x.scene
  { handler := turn.handler
    scene := turn.scene
    sequence := x.sequence + 1
    effects := x.effects ++ match slot.delivery with
      | none => []
      | some d =>
          (turn.scene.calls.drop x.scene.calls.length).map
              (.call x.sequence d.subscription.channel) ++
            turn.result.report?.toList.map (.report x.sequence) }

/-- Shows the handler events one after another. -/
def handleAll (e : Environment σ) (last : Nat → Bool) (x : Solo σ) (slots : List Slot) : Solo σ :=
  slots.foldl (handle e last) x

/-- The reports so far. -/
def reports (x : Solo σ) : List Report := x.effects.filterMap Effect.report?

/-- How the delivery of the next event goes. -/
def course (e : Environment σ) (last : Nat → Bool) (x : Solo σ) (d : Delivery) (failed : Bool) :
    Plan.Ending × Tally × Scene σ :=
  (Plan.dispatch x.handler.queue d failed).run e x.handler.tally.countSeen.countOwned
    (x.handler.see x.sequence (last x.sequence) x.scene).2

section Events

variable {e : Environment σ} {last : Nat → Bool} {x : Solo σ} {slot : Slot} {queue : String}

theorem claim?_eq (hr : x.handler.role = (0, 1, queue)) (slot : Slot) :
    x.handler.claim? slot = slot.delivery := by
  simp only [Handler.role, Prod.mk.injEq] at hr
  have hserves : x.handler.serves = fun _ => true := by
    funext d
    simp [Handler.serves, hr.1, hr.2.1, ChannelId.shard, shard, Nat.mod_one]
  rw [Handler.claim?, hserves]
  cases slot.delivery <;> rfl

/-- An event without a delivery is only seen. -/
theorem handle_none (hr : x.handler.role = (0, 1, queue)) (hd : slot.delivery = none) :
    x.handle e last slot =
      { handler := { x.handler with tally := x.handler.tally.countSeen }
        scene := (x.handler.see x.sequence (last x.sequence) x.scene).2
        sequence := x.sequence + 1
        effects := x.effects } := by
  have hclaim : (x.handler.see x.sequence (last x.sequence) x.scene).1.claim? slot = none :=
    (claim?_eq hr slot).trans hd
  simp only [handle, Handler.handle, hclaim, hd, List.append_nil]
  rfl

/-- An event with a delivery is dealt with as its plan says. -/
theorem handle_some (hr : x.handler.role = (0, 1, queue)) {d : Delivery}
    (hd : slot.delivery = some d) {ending : Plan.Ending} {t : Tally} {y : Scene σ}
    (hc : x.course e last d slot.failed = (ending, t, y)) {outcome : Outcome}
    (ho : ending.outcome? = some outcome) :
    ∃ scene : Scene σ, scene.toSite = y.toSite ∧ scene.calls = y.calls ∧
      x.handle e last slot =
        { handler := { x.handler with tally := t.countOutcome outcome }
          scene
          sequence := x.sequence + 1
          effects := x.effects ++
            ((y.calls.drop x.scene.calls.length).map (.call x.sequence d.subscription.channel) ++
              [.report x.sequence ⟨d.message.id, d.subscription.channel, outcome⟩]) } := by
  have hclaim : (x.handler.see x.sequence (last x.sequence) x.scene).1.claim? slot = some d :=
    (claim?_eq hr slot).trans hd
  have hrun : (Plan.dispatch (x.handler.see x.sequence (last x.sequence) x.scene).1.take.queue d
      slot.failed).run e (x.handler.see x.sequence (last x.sequence) x.scene).1.take.tally
      (x.handler.see x.sequence (last x.sequence) x.scene).2 = (ending, t, y) := hc
  cases ending with
  | finished o =>
      cases ho
      refine ⟨y, rfl, rfl, ?_⟩
      simp only [handle, Handler.handle, hclaim, Handler.deliver, hrun, hd]
      rfl
  | crashed crash =>
      cases ho
      refine ⟨Handler.contain d crash y, rfl, by simp [Handler.contain], ?_⟩
      simp only [handle, Handler.handle, hclaim, Handler.deliver, hrun, hd]
      simp only [Handler.contain, Scene.calls_log]
      rfl
  | waiting c mark rest => contradiction

theorem role_handle (e : Environment σ) (last : Nat → Bool) (x : Solo σ) (slot : Slot) :
    (x.handle e last slot).handler.role = x.handler.role := by
  simp only [handle, Handler.handle]
  split
  · rfl
  · simp only [Handler.deliver]
    split <;> rfl

end Events

section Prompt

variable {τ : Type} {b : Callees σ τ} {β : Behaviour τ} {last : Nat → Bool} {x : Solo σ}
  {slot : Slot} {d : Delivery} {queue : String}

/-- Where no send waits, every delivery comes to its end. -/
theorem course_spec (hb : b.Follows β) (hprompt : b.Prompt) (hx : b.calm x.scene.outside)
    (last : Nat → Bool) (d : Delivery) (failed : Bool) :
    ∃ ending t y outcome, x.course b.env last d failed = (ending, t, y) ∧
      ending.outcome? = some outcome ∧ b.Beside d x.scene.toSite y.toSite ∧ b.calm y.outside ∧
        x.scene.calls <+: y.calls := by
  have hsite := x.handler.toSite_see x.sequence (last x.sequence) x.scene
  have hcalls := x.handler.calls_see x.sequence (last x.sequence) x.scene
  have hcalm : b.calm (x.handler.see x.sequence (last x.sequence) x.scene).2.outside := by
    rw [hsite]
    exact hx
  obtain ⟨hbeside, hend, outcome, ho⟩ := Plan.run_beside hb hprompt
    (Plan.serves_dispatch x.handler.queue d failed) x.handler.tally.countSeen.countOwned hcalm
  have hgrow := Plan.calls_run (Plan.dispatch x.handler.queue d failed) b.env
    x.handler.tally.countSeen.countOwned (x.handler.see x.sequence (last x.sequence) x.scene).2
  rw [hsite] at hbeside
  rw [hcalls] at hgrow
  exact ⟨_, _, _, outcome, rfl, ho, hbeside, hend, hgrow⟩

theorem calm_handle (hb : b.Follows β) (hprompt : b.Prompt) (hr : x.handler.role = (0, 1, queue))
    (hx : b.calm x.scene.outside) : b.calm (x.handle b.env last slot).scene.outside := by
  cases hd : slot.delivery with
  | none =>
      rw [handle_none hr hd]
      have hsee := x.handler.toSite_see x.sequence (last x.sequence) x.scene
      simp only [hsee, hx]
  | some d =>
      obtain ⟨ending, t, y, outcome, hc, ho, -, hcalm, -⟩ :=
        course_spec hb hprompt hx last d slot.failed
      obtain ⟨scene, hsite, -, heq⟩ := handle_some hr hd hc ho
      rw [heq]
      simp only [hsite, hcalm]

/-- An event changes nothing on other channels. -/
theorem agree_handle {home : Message → ChannelId} {own : ChannelId → Prop} (hb : b.Follows β)
    (hprompt : b.Prompt) (hr : x.handler.role = (0, 1, queue)) (hx : b.calm x.scene.outside)
    (hd : ∀ d, slot.delivery = some d →
      home d.message = d.subscription.channel ∧ ¬ own d.subscription.channel) :
    b.Agree b home own none (x.handle b.env last slot).scene.toSite x.scene.toSite := by
  cases hslot : slot.delivery with
  | none =>
      rw [handle_none hr hslot]
      simp only [Handler.toSite_see]
      exact .refl b home own none _
  | some d =>
      obtain ⟨ending, t, y, outcome, hc, ho, hbeside, -, -⟩ :=
        course_spec hb hprompt hx last d slot.failed
      obtain ⟨scene, hsite, -, heq⟩ := handle_some hr hslot hc ho
      rw [heq]
      simp only [hsite]
      obtain ⟨hhome, hown⟩ := hd d hslot
      exact hbeside.agree hown hhome

/-- What the outside gets of an event belongs to the channel of its delivery, and the calls are
those of the journal. -/
theorem effects_handle (hb : b.Follows β) (hprompt : b.Prompt)
    (hr : x.handler.role = (0, 1, queue)) (hx : b.calm x.scene.outside) (last : Nat → Bool)
    (slot : Slot) :
    ∃ more, (x.handle b.env last slot).effects = x.effects ++ more ∧
      (∀ y ∈ more, ∃ d, slot.delivery = some d ∧ y.channel = d.subscription.channel) ∧
      (x.handle b.env last slot).scene.calls = x.scene.calls ++ more.filterMap Effect.call? := by
  cases hd : slot.delivery with
  | none =>
      rw [handle_none hr hd]
      exact ⟨[], by simp, by simp, by simp [Handler.calls_see]⟩
  | some d =>
      obtain ⟨ending, t, y, outcome, hc, ho, -, -, calls, hgrown⟩ :=
        course_spec hb hprompt hx last d slot.failed
      obtain ⟨scene, -, hcalls, heq⟩ := handle_some hr hd hc ho
      rw [heq]
      refine ⟨_, rfl, ?_, ?_⟩
      · intro z hz
        refine ⟨d, rfl, ?_⟩
        rcases List.mem_append.mp hz with hz | hz
        · obtain ⟨c, -, rfl⟩ := List.mem_map.mp hz
          rfl
        · rw [List.mem_singleton.mp hz]
          rfl
      · rw [hcalls, ← hgrown]
        simp [List.filterMap_map, Function.comp_def, Effect.call?]

end Prompt

end Solo

end ShardedDelivery
