import ShardedDelivery.Handler
import ShardedDelivery.Proofs.Plan.Scope

/-! # Scenes

What a call leaves of the scene, and what the journal tells of it afterwards: the calls that were
made, those that returned, and everything noted since an earlier scene. -/

namespace ShardedDelivery

/-- The call that is noted. -/
def Entry.call? : Entry → Option Call
  | .called c _ => some c
  | _ => none

/-- The call that is noted to have returned. -/
def Entry.returned? : Entry → Option Call
  | .returned c _ => some c
  | _ => none

variable {σ : Type} {e : Environment σ}

/-- A delivery is taken back in the books. -/
def Site.takeBack (s : Site σ) (d : Delivery) : Site σ :=
  { s with books := s.books.applyAll (Edit.rollback d.message d.subscription) }

namespace Scene

/-- The scene after a delivery was taken back. -/
def takeBack (s : Scene σ) (d : Delivery) : Scene σ := s.moveTo (s.toSite.takeBack d)

/-- The calls noted in the journal. -/
def calls (s : Scene σ) : List Call := s.journal.filterMap Entry.call?

/-- The calls that are noted to have returned. -/
def returns (s : Scene σ) : List Call := s.journal.filterMap Entry.returned?

/-- What has been noted since an earlier scene. -/
def since (s earlier : Scene σ) : List Entry := s.journal.drop earlier.journal.length

/-- Every call made since an earlier scene has returned. -/
def Answered (s earlier : Scene σ) : Prop :=
  ∃ calls, s.calls = earlier.calls ++ calls ∧ s.returns = earlier.returns ++ calls

/-- The scene after a call that has ended so, and has left this site. -/
def answered (s : Scene σ) (c : Call) (result : Except Crash c.Reply) (site : Site σ) : Scene σ :=
  ((s.note (.called c s.books)).moveTo site).noteEnd c result

section Sites

variable (s : Scene σ)

@[simp] theorem toSite_log (line : Line) : (s.log line).toSite = s.toSite := rfl

@[simp] theorem toSite_noteEnd (c : Call) (result : Except Crash c.Reply) :
    (s.noteEnd c result).toSite = s.toSite := by
  cases result <;> rfl

@[simp] theorem toSite_answered (c : Call) (result : Except Crash c.Reply) (site : Site σ) :
    (s.answered c result site).toSite = site :=
  toSite_noteEnd _ c result

/-- A call is noted before anything comes of it. -/
theorem journal_answered (c : Call) (result : Except Crash c.Reply) (site : Site σ) :
    s.journal ++ [.called c s.books] <+: (s.answered c result site).journal := by
  cases result with
  | ok reply => exact List.prefix_append _ _
  | error crash => exact List.prefix_refl _

/-- A call is answered as the callee answers it, and leaves the site as the callee does. -/
theorem call_spec (e : Environment σ) (c : Call) :
    (s.call e c).1 = (e.answer c s.toSite).1 ∧
      (s.call e c).2.toSite = (e.answer c s.toSite).2 := by
  have hsite : (s.note (.called c s.books)).toSite = s.toSite := rfl
  rcases ha : e.answer c s.toSite with ⟨result | mark, site⟩
  · simp only [call, hsite, ha]
    exact ⟨trivial, toSite_noteEnd _ _ _⟩
  · simp only [call, hsite, ha]
    exact ⟨trivial, rfl⟩

variable {s} {c : Call} {site : Site σ}

theorem call_ended {result : Except Crash c.Reply}
    (h : e.answer c s.toSite = (.ended result, site)) :
    s.call e c = (.ended result, s.answered c result site) := by
  have hsite : (s.note (.called c s.books)).toSite = s.toSite := rfl
  simp only [call, hsite, h]
  rfl

theorem call_waiting {mark : Nat} (h : e.answer c s.toSite = (.waiting mark, site)) :
    s.call e c = (.waiting mark, (s.note (.called c s.books)).moveTo site) := by
  have hsite : (s.note (.called c s.books)).toSite = s.toSite := rfl
  simp only [call, hsite, h]

end Sites

section Calls

variable (s : Scene σ) (c : Call)

@[simp] theorem calls_log (line : Line) : (s.log line).calls = s.calls := by
  simp [calls, log, note, Entry.call?]

@[simp] theorem calls_edit (change : Edit) : (s.edit change).calls = s.calls := rfl

@[simp] theorem calls_moveTo (site : Site σ) : (s.moveTo site).calls = s.calls := rfl

@[simp] theorem calls_noteEnd (result : Except Crash c.Reply) :
    (s.noteEnd c result).calls = s.calls := by
  cases result <;> simp [calls, noteEnd, note, Entry.call?]

@[simp] theorem calls_note_called (found : Books) :
    (s.note (.called c found)).calls = s.calls ++ [c] := by
  simp [calls, note, Entry.call?]

@[simp] theorem calls_answered (result : Except Crash c.Reply) (site : Site σ) :
    (s.answered c result site).calls = s.calls ++ [c] := by
  simp [answered]

theorem calls_call (e : Environment σ) : (s.call e c).2.calls = s.calls ++ [c] := by
  rcases ha : e.answer c s.toSite with ⟨result | mark, site⟩
  · rw [call_ended ha, calls_answered]
  · rw [call_waiting ha, calls_moveTo, calls_note_called]

theorem calls_callLate {mark : Nat} {result : Except Crash c.Reply} {s' : Scene σ}
    (h : s.callLate e c mark = some (result, s')) : s'.calls = s.calls := by
  simp only [callLate, Option.map_eq_some_iff, Prod.mk.injEq] at h
  obtain ⟨⟨result', site⟩, -, -, rfl⟩ := h
  simp

@[simp] theorem returns_log (line : Line) : (s.log line).returns = s.returns := by
  simp [returns, log, note, Entry.returned?]

@[simp] theorem returns_edit (change : Edit) : (s.edit change).returns = s.returns := rfl

@[simp] theorem returns_moveTo (site : Site σ) : (s.moveTo site).returns = s.returns := rfl

@[simp] theorem returns_note_called (found : Books) :
    (s.note (.called c found)).returns = s.returns := by
  simp [returns, note, Entry.returned?]

@[simp] theorem returns_note_returned (accepted : Bool) :
    (s.note (.returned c accepted)).returns = s.returns ++ [c] := by
  simp [returns, note, Entry.returned?]

@[simp] theorem returns_answered_ok (reply : c.Reply) (site : Site σ) :
    (s.answered c (.ok reply) site).returns = s.returns ++ [c] := by
  simp [answered, noteEnd]

@[simp] theorem returns_answered_error (crash : Crash) (site : Site σ) :
    (s.answered c (.error crash) site).returns = s.returns := by
  simp [answered, noteEnd]

end Calls

end Scene

namespace Plan

section Calls

variable {c : Call} {s : Scene σ} {site : Site σ}

/-- After a call that returned, a run goes on with what the reply asks for. -/
theorem run_call_ok {reply : c.Reply} (h : e.answer c s.toSite = (.ended (.ok reply), site))
    (rest : c.Reply → Plan) (t : Tally) :
    (call c rest).run e t s = (rest reply).run e t (s.answered c (.ok reply) site) := by
  simp only [run, Scene.call_ended h]

theorem run_call_crash {crash : Crash} (h : e.answer c s.toSite = (.ended (.error crash), site))
    (rest : c.Reply → Plan) (t : Tally) :
    (call c rest).run e t s = (.crashed crash, t, s.answered c (.error crash) site) := by
  simp only [run, Scene.call_ended h]

theorem run_call_waiting {mark : Nat} (h : e.answer c s.toSite = (.waiting mark, site))
    (rest : c.Reply → Plan) (t : Tally) :
    (call c rest).run e t s =
      (.waiting c mark rest, t, (s.note (.called c s.books)).moveTo site) := by
  simp only [run, Scene.call_waiting h]

end Calls

/-- A step of a plan makes the call that the plan starts with. -/
theorem calls_step (plan : Plan) (e : Environment σ) (t : Tally) (s : Scene σ) :
    (plan.step e t s).2.2.calls = s.calls ++ plan.calls := by
  cases plan with
  | call c rest => simpa [step, Plan.calls] using s.calls_call c e
  | _ => simp [step, Plan.calls]

/-- A run only adds to the journal. -/
theorem journal_run (plan : Plan) (e : Environment σ) (t : Tally) (s : Scene σ) :
    s.journal <+: (plan.run e t s).2.2.journal := by
  induction plan generalizing t s with
  | finish outcome => exact List.prefix_refl _
  | log line rest ih => exact (List.prefix_append _ _).trans (ih t (s.log line))
  | edit change rest ih => exact ih t (s.edit change)
  | countRollback rest ih => exact ih t.countRollback s
  | check q rest ih => exact ih _ t s
  | call c rest ih =>
      have hcalled : s.journal <+: s.journal ++ [.called c s.books] := List.prefix_append _ _
      rcases ha : e.answer c s.toSite with ⟨(crash | reply) | mark, site⟩
      · rw [run_call_crash ha]
        exact hcalled.trans (s.journal_answered c _ site)
      · rw [run_call_ok ha]
        exact (hcalled.trans (s.journal_answered c _ site)).trans (ih reply t _)
      · rw [run_call_waiting ha]
        exact hcalled

/-- The run of a plan only adds to the calls. -/
theorem calls_run (plan : Plan) (e : Environment σ) (t : Tally) (s : Scene σ) :
    s.calls <+: (plan.run e t s).2.2.calls :=
  (plan.journal_run e t s).filterMap Entry.call?

end Plan

namespace Handler

variable (h : Handler) (s : Nat) (last : Bool) (scene : Scene σ)

theorem toSite_see : (h.see s last scene).2.toSite = scene.toSite := by
  unfold see
  split <;> rfl

theorem calls_see : (h.see s last scene).2.calls = scene.calls := by
  unfold see
  split <;> simp

theorem returns_see : (h.see s last scene).2.returns = scene.returns := by
  unfold see
  split <;> simp

end Handler

end ShardedDelivery
