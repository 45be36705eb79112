import ShardedDelivery.Proofs.Crew
import ShardedDelivery.Proofs.Solo

/-! # Warnings and errors

What a crew logs as a warning or an error belongs to the report of one delivery, and every report
has the alarms of its outcome, also one that is lost. A move to the dead letters is announced in the
log as well, and then tried once. -/

namespace ShardedDelivery

variable {σ : Type}

/-- What an alarm says. -/
inductive Alarm where
  | subscriberClosed
  | topicDiscarded
  | moving
  | moveFailed
  | unexpected
deriving DecidableEq, Repr

/-- The outcome of the reports that have this alarm, if it is only one. -/
def Alarm.outcome? : Alarm → Option Outcome
  | subscriberClosed => some (.dropped .subscriberClosed)
  | topicDiscarded => some (.dropped .topicNoDeadLetter)
  | moving => none
  | moveFailed => some (.dropped .deadLetterFailed)
  | unexpected => some .unhandled

namespace Line

/-- Whether this is a warning or an error. -/
def isAlarm (l : Line) : Bool := l.level = .warn || l.level = .error

/-- What this line says, if handlers raise alarms with it. -/
def alarm? : Line → Option Alarm
  | subscriberClosed .. => some .subscriberClosed
  | topicDiscarded .. => some .topicDiscarded
  | moving .. => some .moving
  | moveFailed .. => some .moveFailed
  | unexpectedFailure .. | crashed .. => some .unexpected
  | _ => none

end Line

/-- Whether this is a move to the dead letters. -/
def Call.isMove : Call → Bool
  | moveToDeadLetters .. => true
  | _ => false

/-- The warning or error that is noted. -/
def Entry.alarm? : Entry → Option Line
  | logged line => if line.isAlarm then some line else none
  | _ => none

namespace Scene

/-- The warnings and errors in the journal. -/
def alarms (s : Scene σ) : List Line := s.journal.filterMap Entry.alarm?

/-- The moves to the dead letters that were tried. -/
def moves (s : Scene σ) : List Call := s.calls.filter Call.isMove

end Scene

/-- A report has these warnings and errors, and its delivery these moves to the dead letters. -/
inductive Report.Alarms (r : Report) : List Line → List Call → Prop where
  | quiet (houtcome : r.outcome = .delivered ∨ r.outcome = .requeued ∨
      r.outcome = .dropped .stale ∨ r.outcome = .dropped .disposable) : r.Alarms [] []
  | subscriberClosed (houtcome : r.outcome = .dropped .subscriberClosed) :
      r.Alarms [.subscriberClosed r.message r.channel] []
  | topicDiscarded (destination : String) (houtcome : r.outcome = .dropped .topicNoDeadLetter) :
      r.Alarms [.topicDiscarded r.message destination] []
  | moved (m : Message) (queue : String) (hm : m.id = r.message)
      (houtcome : r.outcome = .deadLettered) :
      r.Alarms [.moving r.message m.destination queue] [.moveToDeadLetters m m.destination queue]
  | moveFailed (m : Message) (queue : String) (error : MoveError) (hm : m.id = r.message)
      (houtcome : r.outcome = .dropped .deadLetterFailed) :
      r.Alarms [.moving r.message m.destination queue, .moveFailed r.message m.destination error]
        [.moveToDeadLetters m m.destination queue]
  | unexpected (failure : SendFailure) (houtcome : r.outcome = .unhandled) :
      r.Alarms [.unexpectedFailure r.message r.channel failure] []
  | crashed (what : String) (houtcome : r.outcome = .unhandled) :
      r.Alarms [.crashed r.message r.channel what] []
  | moveCrashed (m : Message) (queue what : String) (hm : m.id = r.message)
      (houtcome : r.outcome = .unhandled) :
      r.Alarms [.moving r.message m.destination queue, .crashed r.message r.channel what]
        [.moveToDeadLetters m m.destination queue]

/-- A report has one alarm of the kind that belongs to its outcome, and no other such alarm. -/
theorem Report.Alarms.countP {r : Report} {lines : List Line} {moves : List Call}
    (h : r.Alarms lines moves) {alarm : Alarm} {outcome : Outcome}
    (houtcome : alarm.outcome? = some outcome) :
    lines.countP (·.alarm? = some alarm) = if r.outcome = outcome then 1 else 0 := by
  cases h with
  | quiet ho =>
      rcases ho with ho | ho | ho | ho <;> rw [ho] <;> cases alarm <;> cases houtcome <;> rfl
  | subscriberClosed ho | topicDiscarded _ ho | moved _ _ _ ho | moveFailed _ _ _ _ ho
  | unexpected _ ho | crashed _ ho | moveCrashed _ _ _ _ ho =>
      rw [ho]
      cases alarm <;> cases houtcome <;> rfl

/-- Every move of a report is announced once. -/
theorem Report.Alarms.countP_moving {r : Report} {lines : List Line} {moves : List Call}
    (h : r.Alarms lines moves) : lines.countP (·.alarm? = some .moving) = moves.length := by
  cases h <;> rfl

namespace Note

/-- The warning or error that was logged. -/
def alarm? : Note → Option Line
  | logged line => if line.isAlarm then some line else none
  | _ => none

/-- The move to the dead letters that was tried. -/
def move? : Note → Option Call
  | asked (.moveToDeadLetters m destination queue) => some (.moveToDeadLetters m destination queue)
  | _ => none

theorem alarm?_of_not_onRecord (x : Note) (hx : x.onRecord = false) : x.alarm? = none := by
  rcases x with line | _ | _ | _ | _ | _
  on_goal 1 => cases line
  all_goals first | rfl | cases hx

theorem move?_of_not_onRecord (x : Note) (hx : x.onRecord = false) : x.move? = none := by
  rcases x with _ | _ | _ | _ | c | _
  on_goal 5 => cases c
  all_goals first | rfl | cases hx

end Note

/-- The warnings, the errors and the moves among some notes belong to a report. -/
def Report.Covers (r : Report) (told : List Note) : Prop :=
  r.Alarms (told.filterMap Note.alarm?) (told.filterMap Note.move?)

/-- Notes without alarms and moves belong to no report. -/
theorem Report.Covers.quiet_append {r : Report} {told : List Note} (h : r.Covers told)
    (quiet : List Note) (halarms : quiet.filterMap Note.alarm? = [])
    (hmoves : quiet.filterMap Note.move? = []) :
    r.Covers (quiet ++ told) := by
  rw [Covers, List.filterMap_append, List.filterMap_append, halarms, hmoves]
  exact h

/-! ## Turns -/

namespace Plan

variable {queue : String} {d : Delivery} {told : List Note} {ending : Ending} {outcome : Outcome}

theorem Routing.covers (h : Routing queue d.message told ending)
    (houtcome : ending.outcome? = some outcome) :
    (Report.mk d.message.id d.subscription.channel outcome).Covers (told ++ ending.notes d) := by
  cases h with
  | topic =>
      cases houtcome
      exact .topicDiscarded d.message.destination rfl
  | unmoved =>
      cases houtcome
      exact .moveCrashed d.message queue _ rfl rfl
  | refused error =>
      cases houtcome
      exact .moveFailed d.message queue error rfl rfl
  | moved h =>
      cases h with
      | counted =>
          cases houtcome
          exact .moved d.message queue rfl rfl
      | _ =>
          cases houtcome
          exact .moveCrashed d.message queue _ rfl rfl

theorem Recovering.covers (h : Recovering d told ending)
    (houtcome : ending.outcome? = some outcome) :
    (Report.mk d.message.id d.subscription.channel outcome).Covers (told ++ ending.notes d) := by
  cases h with
  | unqueued | uncounted =>
      cases houtcome
      exact .crashed _ rfl
  | requeued =>
      cases houtcome
      exact .quiet (.inr (.inl rfl))
  | disposable =>
      cases houtcome
      exact .quiet (.inr (.inr (.inr rfl)))
  | closed =>
      cases houtcome
      exact .subscriberClosed rfl

theorem Mending.covers (h : Mending queue d told ending)
    (houtcome : ending.outcome? = some outcome) :
    (Report.mk d.message.id d.subscription.channel outcome).Covers (told ++ ending.notes d) := by
  cases h with
  | routed h => exact h.covers houtcome
  | recovered h => exact h.covers houtcome
  | undiscarded =>
      cases houtcome
      exact .crashed _ rfl
  | discarded =>
      cases houtcome
      exact .quiet (.inr (.inr (.inl rfl)))

/-- A delivery that has come to an outcome has raised the alarms of its report. -/
theorem Delivering.covers (h : Delivering queue d told ending)
    (houtcome : ending.outcome? = some outcome) :
    (Report.mk d.message.id d.subscription.channel outcome).Covers (told ++ ending.notes d) := by
  cases h with
  | untried h =>
      rw [List.append_assoc]
      exact (h.covers houtcome).quiet_append (rollbackNotes d) rfl rfl
  | waits => cases houtcome
  | crashes =>
      cases houtcome
      exact .crashed _ rfl
  | accepted h =>
      cases h with
      | counted =>
          cases houtcome
          exact .quiet (.inl rfl)
      | _ =>
          cases houtcome
          exact .crashed _ rfl
  | unclassified reason =>
      cases houtcome
      exact .unexpected _ rfl
  | @refused line more _ hline h =>
      have hquiet : line.isAlarm = false := by simp [Line.isAlarm, hline]
      have hmended := (h.covers houtcome).quiet_append (rollbackNotes d) rfl rfl
      have hrefused := hmended.quiet_append
        [.asked (.send d), .answered (.send d) false, .logged line]
        (by simp [Note.alarm?, hquiet]) rfl
      rwa [← List.append_assoc, ← List.append_assoc, List.append_assoc] at hrefused

end Plan

/-- A turn that is over raised the alarms of its report, and none without a report. -/
theorem Showing.Undergoes.covers {v : Showing} {told : List Note} (h : v.Undergoes told) :
    (v.result.made? = none ∧ told = []) ∨ ∃ r, v.result.made? = some r ∧ r.Covers told := by
  cases h with
  | foreign hresult => exact .inl ⟨by simp [hresult, Upshot.made?], rfl⟩
  | reported hslot htraces houtcome hmade =>
      exact .inr ⟨_, hmade, htraces.delivering.covers houtcome⟩

/-! ## Runs -/

namespace Scene

variable (s : Scene σ)

theorem alarms_eq : s.alarms = s.notes.filterMap Note.alarm? := by
  rw [alarms, notes, List.filterMap_map]
  exact List.filterMap_congr fun entry _ => by cases entry <;> rfl

theorem moves_eq : s.moves = s.notes.filterMap Note.move? := by
  rw [moves, calls_eq, List.filter_filterMap]
  refine List.filterMap_congr fun x _ => ?_
  cases x with
  | asked c => cases c <;> simp [Note.asked?, Note.move?, Call.isMove, Option.filter]
  | _ => rfl

end Scene

/-- If every report has the alarms of its turn, and those of a kind have one, there are as many of
them as there are such reports. -/
theorem countP_of_forall₂ {reports : List Report} {turns : List (List Line × List Call)}
    (h : List.Forall₂ (fun r turn => r.Alarms turn.1 turn.2) reports turns) {p : Line → Bool}
    {q : Report → Bool}
    (hpq : ∀ r lines moves, r.Alarms lines moves → lines.countP p = if q r then 1 else 0) :
    (turns.flatMap Prod.fst).countP p = reports.countP q := by
  induction h with
  | nil => rfl
  | cons hfirst _ ih =>
      rw [List.flatMap_cons, List.countP_append, ih, hpq _ _ _ hfirst, List.countP_cons,
        Nat.add_comm]

theorem countP_moving_of_forall₂ {reports : List Report} {turns : List (List Line × List Call)}
    (h : List.Forall₂ (fun r turn => r.Alarms turn.1 turn.2) reports turns) :
    (turns.flatMap Prod.fst).countP (·.alarm? = some .moving) =
      (turns.flatMap Prod.snd).length := by
  induction h with
  | nil => rfl
  | cons hfirst _ ih =>
      rw [List.flatMap_cons, List.flatMap_cons, List.countP_append, List.length_append, ih,
        hfirst.countP_moving]

namespace Crew

/-- The alarms and the moves of turns that are over belong to their reports. -/
theorem alarms_closed {closed : List (Showing × List Note)}
    (hundergone : ∀ v ∈ closed, v.1.Undergoes v.2) :
    ∃ turns : List (List Line × List Call),
      List.Forall₂ (fun r turn => r.Alarms turn.1 turn.2)
        ((closed.map Prod.fst).filterMap (·.result.made?)) turns ∧
      (closed.flatMap Prod.snd).filterMap Note.alarm? = turns.flatMap Prod.fst ∧
      (closed.flatMap Prod.snd).filterMap Note.move? = turns.flatMap Prod.snd := by
  induction closed with
  | nil => exact ⟨[], .nil, rfl, rfl⟩
  | cons v closed ih =>
      obtain ⟨turns, hturns, halarms, hmoves⟩ :=
        ih fun w hw => hundergone w (List.mem_cons_of_mem _ hw)
      simp only [List.map_cons, List.filterMap_cons, List.flatMap_cons, List.filterMap_append,
        halarms, hmoves]
      rcases (hundergone v List.mem_cons_self).covers with ⟨hnone, htold⟩ | ⟨r, hmade, hcovers⟩
      · rw [hnone, htold]
        exact ⟨turns, hturns, rfl, rfl⟩
      · rw [hmade]
        exact ⟨(_, _) :: turns, .cons hcovers hturns, rfl, rfl⟩

variable {posts : List (Nat × Nat × String)} {site : Site σ} {c : Crew σ}

/-- Whatever crashes and however many turns are given up, the warnings and errors are those of the
reports that were made, one report after another: each has the alarms of its outcome, about its
message, and tries just the moves that it announces. So the alarms of a kind are as many as the
reports with that outcome, together with those that were lost, and moves are announced as often as
they are tried. -/
theorem alarms_match (hrun : Run .free (opening posts site) c) :
    c.scene.alarms.countP (·.alarm? = some .subscriberClosed) =
        c.reports.countP (·.outcome = .dropped .subscriberClosed) +
          c.lost.countP (·.outcome = .dropped .subscriberClosed) ∧
      c.scene.alarms.countP (·.alarm? = some .topicDiscarded) =
        c.reports.countP (·.outcome = .dropped .topicNoDeadLetter) +
          c.lost.countP (·.outcome = .dropped .topicNoDeadLetter) ∧
      c.scene.alarms.countP (·.alarm? = some .moveFailed) =
        c.reports.countP (·.outcome = .dropped .deadLetterFailed) +
          c.lost.countP (·.outcome = .dropped .deadLetterFailed) ∧
      c.scene.alarms.countP (·.alarm? = some .unexpected) =
        c.reports.countP (·.outcome = .unhandled) + c.lost.countP (·.outcome = .unhandled) ∧
      c.scene.alarms.countP (·.alarm? = some .moving) = c.scene.moves.length ∧
      (c.lost = [] → c.made = c.reports) ∧
      ∃ turns : List (List Line × List Call),
        List.Forall₂ (fun r turn => r.Alarms turn.1 turn.2) c.made turns ∧
        c.scene.alarms = turns.flatMap Prod.fst ∧ c.scene.moves = turns.flatMap Prod.snd := by
  obtain ⟨closed, hstretch⟩ := hrun.closed
  obtain ⟨turns, hturns, halarms, hmoves⟩ := alarms_closed hstretch.undergone
  have hpast : c.past = closed.map Prod.fst := by simpa using hstretch.past
  rw [← hpast] at hturns
  rw [← hstretch.filterMap Note.alarm?_of_not_onRecord, ← Scene.alarms_eq] at halarms
  rw [← hstretch.filterMap Note.move?_of_not_onRecord, ← Scene.moves_eq] at hmoves
  have hcount (alarm : Alarm) (outcome : Outcome) (h : alarm.outcome? = some outcome) :
      c.scene.alarms.countP (·.alarm? = some alarm) =
        c.reports.countP (·.outcome = outcome) + c.lost.countP (·.outcome = outcome) := by
    rw [halarms, ← countP_made]
    exact countP_of_forall₂ hturns fun r lines moves hr => by simpa using hr.countP h
  refine ⟨hcount .subscriberClosed _ rfl, hcount .topicDiscarded _ rfl, hcount .moveFailed _ rfl,
    hcount .unexpected _ rfl, ?_, fun hlost => ?_, turns, hturns, halarms, hmoves⟩
  · rw [halarms, hmoves, countP_moving_of_forall₂ hturns]
  · rw [lost, List.filterMap_eq_nil_iff] at hlost
    exact List.filterMap_congr fun v hv => Upshot.made?_of_not_lost (hlost v hv)

/-- Meanwhile, the tracer breaks. -/
def Rehearsal.breakTracer (s : Scene Scripted.Cast) : Site Scripted.Cast :=
  { s with outside := { s.outside with tracerFault := .crashing } }

open Shift.Rehearsal Crew.Rehearsal in
/-- One order is requeued and one becomes a dead letter; then the store refuses a move, twice, but
the second time the report is lost. At last the tracer breaks, after an order was sent. -/
theorem alarms_match_rehearsal :
    ∃ c, Run .free Rehearsal.start c ∧
      c.reports.map (·.outcome) =
        [.requeued, .deadLettered, .dropped .deadLetterFailed, .unhandled] ∧
      c.lost.map (·.outcome) = [.dropped .deadLetterFailed] ∧
      c.scene.alarms = [.moving ⟨2⟩ "orders" "dead", .moving ⟨3⟩ "orders" "dead",
        .moveFailed ⟨3⟩ "orders" ⟨⟨3⟩, "dead", "store rejected move"⟩,
        .moving ⟨90⟩ "bills" "grave",
        .moveFailed ⟨90⟩ "bills" ⟨⟨90⟩, "grave", "store rejected move"⟩,
        .crashed ⟨4⟩ orders.channel "tracer broken"] ∧
      c.scene.moves.length = 3 ∧
      c.scene.alarms.countP (·.alarm? = some .moving) = c.scene.moves.length ∧
      c.scene.alarms.countP (·.alarm? = some .moveFailed) =
        c.reports.countP (·.outcome = .dropped .deadLetterFailed) +
          c.lost.countP (·.outcome = .dropped .deadLetterFailed) ∧
      c.scene.alarms.countP (·.alarm? = some .unexpected) =
        c.reports.countP (·.outcome = .unhandled) + c.lost.countP (·.outcome = .unhandled) := by
  have he : Rules.free.callees (Scripted.environment true) := trivial
  have hrefuse (s : Scene Scripted.Cast) : Rules.free.others s.toSite (refuse s) := trivial
  have htracer (s : Scene Scripted.Cast) : Rules.free.others s.toSite (breakTracer s) := trivial
  have run : Run .free Rehearsal.start _ := .refl
  have run := run.tail (.shown 0 rfl he (.holding (order 1) false) 0 true false (by decide))
  have run := run.tail (.shown 0 rfl he (.holding (order 2) false) 1 true false (by decide))
  have run := run.tail (.meanwhile _ (hrefuse _))
  have run := run.tail (.shown 0 rfl he (.holding (order 3) false) 2 true false (by decide))
  have run := run.tail (.shown 1 rfl he (.holding bill true) 0 true true (by decide))
  have run := run.tail (.meanwhile _ (htracer _))
  have run := run.tail (.shown 0 rfl he (.holding (order 4) false) 3 true false (by decide))
  obtain ⟨-, -, hfailed, hunexpected, hmoving, -⟩ := alarms_match run
  exact ⟨_, run, by decide, by decide, by decide, by decide, hmoving, hfailed, hunexpected⟩

namespace Rehearsal

/-- A message for a subscriber that is not durable. -/
def notice : Delivery := ⟨⟨0, ⟨0, 1⟩, false⟩, ⟨0, ⟨7⟩, "orders", .queue⟩, {}⟩

/-- One handler. The transport of the notice breaks, and does not survive its last owner. -/
def brittle : Crew Scripted.Cast :=
  let part : Scripted.Part :=
    { cues := [{ ending := .fails (.transient "gone") }], fragile := true }
  .opening [(0, 1, "dead")]
    { books := {}, outside := { parts := ({} : Table _ _).set notice.subscription part } }

end Rehearsal

/-- The subscriber of a message is gone: that is logged, and counted, but no report of it comes
out, since its transport does not survive that the handler lets go of the delivery. -/
theorem exists_alarm_unreported : ∃ c, Run .free Rehearsal.brittle c ∧
    Scripted.fatal Rehearsal.notice c.scene.toSite ∧ c.tally.dropped = 1 ∧ c.reports = [] ∧
      c.scene.alarms = [.subscriberClosed ⟨7⟩ ⟨0, 1⟩] ∧
      c.scene.alarms.countP (·.alarm? = some .subscriberClosed) ≠
        c.reports.countP (·.outcome = .dropped .subscriberClosed) := by
  have he : Rules.free.callees (Scripted.environment true) := trivial
  have run : Run .free Rehearsal.brittle _ := .refl
  have run := run.tail
    (.shown 0 rfl he (.holding Rehearsal.notice false) 0 true true (by decide))
  exact ⟨_, run, by decide, by decide, by decide, by decide, by decide⟩

end Crew

end ShardedDelivery
