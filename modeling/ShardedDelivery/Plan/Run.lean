import ShardedDelivery.Environment
import ShardedDelivery.Plan.Basic
import ShardedDelivery.Tally

/-! # Carrying out plans

`Plan.step` does the first thing of a plan and `Plan.run` all of it, up to its end, a crash, or a
call that waits. A run is its first step and the run of what is left (`run_eq_step`). -/

namespace ShardedDelivery.Plan

/-- Where a run stops. -/
inductive Ending where
  | finished (outcome : Outcome)
  | crashed (crash : Crash)
  | waiting (c : Call) (mark : Nat) (rest : c.Reply → Plan)

/-- What one step leads to. -/
inductive Progress where
  | ended (ending : Ending)
  | going (rest : Plan)

variable {σ : Type}

/-- What a call that has ended leads to. -/
def Progress.ofResult {c : Call} (rest : c.Reply → Plan) : Except Crash c.Reply → Progress
  | .ok reply => .going (rest reply)
  | .error crash => .ended (.crashed crash)

/-- What the attempt of a call leads to. -/
def Progress.ofAttempt {c : Call} (rest : c.Reply → Plan) : Attempt c.Reply → Progress
  | .ended result => ofResult rest result
  | .waiting mark => .ended (.waiting c mark rest)

/-- Does the first thing of a plan. -/
def step (e : Environment σ) : Plan → Tally → Scene σ → Progress × Tally × Scene σ
  | finish outcome, t, s => (.ended (.finished outcome), t, s)
  | log line rest, t, s => (.going rest, t, s.log line)
  | edit change rest, t, s => (.going rest, t, s.edit change)
  | countRollback rest, t, s => (.going rest, t.countRollback, s)
  | check q rest, t, s => (.going (rest (q.holds s.books)), t, s)
  | call c rest, t, s =>
      match s.call e c with
      | (attempt, s) => (.ofAttempt rest attempt, t, s)

/-- Carries a plan out. -/
def run (e : Environment σ) : Plan → Tally → Scene σ → Ending × Tally × Scene σ
  | finish outcome, t, s => (.finished outcome, t, s)
  | log line rest, t, s => rest.run e t (s.log line)
  | edit change rest, t, s => rest.run e t (s.edit change)
  | countRollback rest, t, s => rest.run e t.countRollback s
  | check q rest, t, s => (rest (q.holds s.books)).run e t s
  | call c rest, t, s =>
      match s.call e c with
      | (.ended (.ok reply), s) => (rest reply).run e t s
      | (.ended (.error crash), s) => (.crashed crash, t, s)
      | (.waiting mark, s) => (.waiting c mark rest, t, s)

/-- A run is its first step, followed by the run of what is left. -/
theorem run_eq_step (e : Environment σ) (p : Plan) (t : Tally) (s : Scene σ) :
    p.run e t s =
      match p.step e t s with
      | (.ended ending, t, s) => (ending, t, s)
      | (.going rest, t, s) => rest.run e t s := by
  cases p with
  | call c rest =>
      simp only [run, step]
      rcases s.call e c with ⟨⟨_ | _⟩ | _, s⟩ <;> rfl
  | _ => rfl

end ShardedDelivery.Plan
