import ShardedDelivery.Pool.Step
import ShardedDelivery.Scripted

/-! # Runs of a pool

A run is any order of actions. What each action does, as far as it can be told from outside, is
kept as a trail of deeds, and what others do to the site meanwhile is left to a relation. -/

namespace ShardedDelivery

/-- The points that a handler passes with every sequence, in this order. -/
inductive Phase where
  | heard
  | received
  | claimed
  | released
  | begun
  | done
deriving DecidableEq, Repr

/-- Something that is done in a pool. Handlers are named by their ordinals. -/
inductive Deed where
  /-- A publisher comes with an event. -/
  | came (ticket : Nat) (slot : Slot)
  /-- The event of a publisher is written under a sequence. -/
  | wrote (ticket sequence : Nat) (slot : Slot)
  /-- A sequence is announced to a handler. -/
  | told (ordinal sequence : Nat)
  /-- A handler is found gone, and the sequence is announced to nobody else. -/
  | gaveUp (ordinal sequence : Nat)
  | received (ordinal sequence : Nat)
  /-- A handler looks at the place of a sequence and takes this out of it. -/
  | claimed (ordinal sequence : Nat) (slot : Slot)
  | released (ordinal sequence : Nat)
  /-- A handler is shown what it has claimed. -/
  | begun (ordinal sequence : Nat) (slot : Slot)
  | called (ordinal sequence : Nat) (d : Delivery) (c : Call)
  /-- The outcome of a delivery is counted. -/
  | recorded (ordinal sequence : Nat) (report : Report)
  /-- The report of a delivery is sent. -/
  | reported (ordinal sequence : Nat) (report : Report)
  /-- A handler is through with a sequence. -/
  | done (ordinal sequence : Nat)
  /-- A handler ends before its time. -/
  | stopped (ordinal : Nat)
deriving DecidableEq

namespace Deed

/-- The handler, the point and the sequence, when a handler passes a point. -/
def pass? : Deed → Option (Nat × Phase × Nat)
  | told i s => some (i, .heard, s)
  | received i s => some (i, .received, s)
  | claimed i s _ => some (i, .claimed, s)
  | released i s => some (i, .released, s)
  | begun i s _ => some (i, .begun, s)
  | done i s => some (i, .done, s)
  | _ => none

/-- The sequence with which this handler passes this point, if it does. -/
def sequenceAt? (i : Nat) (φ : Phase) (x : Deed) : Option Nat :=
  match x.pass? with
  | some (j, ψ, s) => if j = i ∧ ψ = φ then some s else none
  | none => none

/-- The event that is written. -/
def event? : Deed → Option Slot
  | wrote _ _ slot => some slot
  | _ => none

end Deed

/-- What was done so far, the oldest first. -/
abbrev Trail := List Deed

namespace Trail

/-- The events written so far; an event's place in the list is its sequence. -/
def events (past : Trail) : List Slot := past.filterMap Deed.event?

/-- The sequences with which a handler has passed a point. -/
def passed (past : Trail) (i : Nat) (φ : Phase) : List Nat := past.filterMap (Deed.sequenceAt? i φ)

/-- How many sequences a handler has brought past a point. -/
def reached (past : Trail) (i : Nat) (φ : Phase) : Nat := (past.passed i φ).length

end Trail

namespace Stage

/-- A handler that has just counted an outcome. -/
def recording (i : Nat) : Stage → List Deed
  | .recorded s _ report => [.recorded i s report]
  | _ => []

/-- What a handler does when it goes from one stage to another. -/
def deeds (i : Nat) : Stage → Stage → List Deed
  | .idle, .received s => [.received i s]
  | .received _, .claimed s slot => [.claimed i s slot]
  | .claimed s _, _ => [.released i s]
  | .released s slot, .idle => [.begun i s slot, .done i s]
  | .released s slot, _ => [.begun i s slot]
  | .dispatching s d (.call c _), after => .called i s d c :: after.recording i
  | .dispatching .., after => after.recording i
  | .waiting .., after => after.recording i
  | .recorded s _ report, _ => [.reported i s report, .done i s]
  | _, _ => []

end Stage

variable {σ : Type}

namespace Floor

/-- What the publisher with the lock does when it goes on. -/
def announcements (f g : Floor σ) : List Deed :=
  match f.pool.holder, g.pool.holder with
  | some ⟨ticket, .writing slot⟩, _ => [.wrote ticket f.pool.next slot]
  | some ⟨_, .announcing s told⟩, some _ => [.told told s]
  | some ⟨_, .announcing s told⟩, none =>
      if told < f.pool.workers.length then [.gaveUp told s] else []
  | none, _ => []

/-- What an action does that leads from one floor to another. -/
def deeds (f : Floor σ) (a : Action) (g : Floor σ) : List Deed :=
  match a with
  | .publish slot => [.came f.pool.tickets slot]
  | .proceed => announcements f g
  | .advance i =>
      match f.pool.workers[i]?, g.pool.workers[i]? with
      | some w, some w' => w.stage.deeds i w'.stage
      | _, _ => []
  | .stop i => [.stopped i]
  | _ => []

/-- A pool that has just been set up in a scene. -/
def opening (config : Config) (reporting : Bool) (scene : Scene σ) : Floor σ :=
  ⟨.new config reporting, scene⟩

end Floor

/-- The floors that a run from a given one can come to, each with the trail of that run. Between
two actions, others may change the site as the relation allows. -/
inductive Run (e : Environment σ) (rely : Site σ → Site σ → Prop) (start : Floor σ) :
    Trail → Floor σ → Prop where
  | start : Run e rely start [] start
  | act {past f a g} : Run e rely start past f → f.act e a = some g →
      Run e rely start (past ++ f.deeds a g) g
  | meanwhile {past f site} : Run e rely start past f → rely f.scene.toSite site →
      Run e rely start past { f with scene := f.scene.moveTo site }

/-- Takes actions one after another, if they are all possible, and keeps the trail. -/
def Floor.replay (e : Environment σ) (f : Floor σ) : List Action → Option (Trail × Floor σ)
  | [] => some ([], f)
  | a :: actions => do
      let g ← f.act e a
      let (deeds, last) ← g.replay e actions
      return (f.deeds a g ++ deeds, last)

namespace Run

variable {e : Environment σ} {rely : Site σ → Site σ → Prop} {start f : Floor σ} {past : Trail}

/-- What is replayed continues a run. -/
theorem append_replay (h : Run e rely start past f) (actions : List Action) {deeds : Trail}
    {last : Floor σ} (hr : f.replay e actions = some (deeds, last)) :
    Run e rely start (past ++ deeds) last := by
  induction actions generalizing past f deeds with
  | nil =>
      simp only [Floor.replay, Option.some.injEq, Prod.mk.injEq] at hr
      obtain ⟨rfl, rfl⟩ := hr
      simpa using h
  | cons a actions ih =>
      simp only [Floor.replay, Option.bind_eq_bind, Option.bind_eq_some_iff, Option.pure_def,
        Option.some.injEq, Prod.mk.injEq, Prod.exists] at hr
      obtain ⟨g, hg, later, last', hlater, rfl, rfl⟩ := hr
      rw [← List.append_assoc]
      exact ih (.act h hg) hlater

/-- A run that is taken up again is one run. -/
theorem trans (h : Run e rely start past f) {later : Trail} {g : Floor σ}
    (hl : Run e rely f later g) : Run e rely start (past ++ later) g := by
  induction hl with
  | start => simpa using h
  | act _ hact ih =>
      rw [← List.append_assoc]
      exact ih.act hact
  | meanwhile _ hrely ih => exact ih.meanwhile hrely

/-- Whatever is on the trail was done by an action, on a floor to which an earlier part of the run
had come. -/
theorem split (h : Run e rely start past f) {before after : Trail} {x : Deed}
    (hp : past = before ++ x :: after) :
    ∃ earlier g a g' first rest, Run e rely start earlier g ∧ g.act e a = some g' ∧
      g.deeds a g' = first ++ x :: rest ∧ before = earlier ++ first ∧ rest <+: after := by
  induction h generalizing before after with
  | start => simp at hp
  | @act past f a g hrun hact ih =>
      rcases List.append_eq_append_iff.mp hp with ⟨first, rfl, hdeeds⟩ | ⟨rest, hpast, hdeeds⟩
      · exact ⟨past, f, a, g, first, after, hrun, hact, hdeeds, rfl, List.prefix_refl _⟩
      · cases rest with
        | nil =>
            have hdeeds' : f.deeds a g = [] ++ x :: after := hdeeds.symm
            exact ⟨past, f, a, g, [], after, hrun, hact, hdeeds', by simpa using hpast.symm,
              List.prefix_refl _⟩
        | cons y rest =>
            obtain ⟨rfl, rfl⟩ := List.cons_eq_cons.mp hdeeds
            obtain ⟨earlier, g', a', g'', first, rest', hrun', hact', hd, hb, hpre⟩ := ih hpast
            exact ⟨earlier, g', a', g'', first, rest', hrun', hact', hd, hb,
              hpre.trans (List.prefix_append _ _)⟩
  | meanwhile hrun hrely ih => exact ih hp

theorem of_replay (actions : List Action) {deeds : Trail} {last : Floor σ}
    (hr : start.replay e actions = some (deeds, last)) : Run e rely start deeds last :=
  append_replay .start actions hr

end Run

/-! ## Rehearsals -/

/-- No handler was stopped. -/
def Trail.staffed (past : Trail) : Bool := past.all fun
  | .stopped _ => false
  | _ => true

theorem Trail.not_stopped {past : Trail} (h : past.staffed) (i : Nat) : .stopped i ∉ past := by
  intro hi
  exact absurd (List.all_eq_true.mp h _ hi) Bool.false_ne_true

namespace Rehearsal

/-- What can be checked after a replay is true of a run in which nobody interferes. -/
theorem exists_run (start : Floor Scripted.Cast) (actions : List Action)
    {P : Trail → Floor Scripted.Cast → Prop} [∀ past f, Decidable (P past f)]
    (h : (start.replay (Scripted.environment false) actions).any fun x => P x.1 x.2) :
    ∃ past f, Run (Scripted.environment false) (fun _ _ => False) start past f ∧ P past f := by
  obtain ⟨⟨past, f⟩, hr, hP⟩ := (Option.any_eq_true _ _).mp h
  exact ⟨past, f, .of_replay actions hr, of_decide_eq_true hP⟩

def delivery : Delivery := ⟨⟨0, ⟨0, 0⟩, false⟩, ⟨0, ⟨0⟩, "news", .queue⟩, {}⟩

/-- Two handlers share a ring of one place. -/
def start : Floor Scripted.Cast :=
  .opening (.normalize 2 1 "dead") true { books := {}, outside := {} }

/-- Every other event is for the first handler. -/
def event (n : Nat) : Delivery :=
  ⟨⟨n % 2, ⟨0, UInt64.ofNat (n % 2)⟩, true⟩, ⟨n, ⟨UInt64.ofNat n⟩, "news", .queue⟩, {}⟩

/-- The second send on the first channel violates a rule. The first one on the second channel
fails for the moment. -/
def scripts : Table Subscription Scripted.Part where
  entries := [
    ((event 0).subscription, { cues := [{}, { ending := .fails (.ruleViolation "size") }] }),
    ((event 1).subscription, { cues := [{ ending := .fails (.transient "gone") }, {}] })]

/-- Two handlers share a ring of two places. -/
def opening : Floor Scripted.Cast :=
  .opening (.normalize 2 2 "dead") true { books := {}, outside := { parts := scripts } }

/-- A publisher gets the lock, and does all that is left to do for its event. -/
def tell (ticket : Nat) : List Action := .acquire ticket :: List.replicate 4 .proceed

/-- Four events go through two places. The second handler has passed the first event on and has
failed with its own before the first handler looks at either. Then both take turns. -/
def relay : List Action :=
  (List.range 4).map (fun n => .publish (.holding (event n) false)) ++ tell 0 ++ tell 1 ++
    List.replicate 20 (.advance 1) ++ List.replicate 11 (.advance 0) ++ tell 2 ++
    List.replicate 4 (.advance 0) ++ tell 3 ++
    (List.replicate 15 [.advance 0, .advance 1]).flatten ++ List.replicate 7 (.advance 0) ++
    [.close, .advance 0, .advance 1]

end Rehearsal

end ShardedDelivery
