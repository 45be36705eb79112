import ShardedDelivery.Proofs.Conservation
import ShardedDelivery.Proofs.Plan.Lockstep

/-! # Notes of a delivery

A delivery leaves notes of its lines, its edits, its counts and its calls, in the order in which
they happen. Which notes a plan may leave, and how it may end then, follows from the plan alone,
however its calls are answered. What holds of all of them is shown node by node. -/

namespace ShardedDelivery

variable {σ : Type}

/-- Something that is done in the course of a delivery. -/
inductive Note where
  | logged (line : Line)
  | edited (change : Edit)
  | countedRollback
  | countedOutcome (outcome : Outcome)
  | asked (c : Call)
  | answered (c : Call) (accepted : Bool)
deriving DecidableEq

namespace Note

/-- Whether this is noted in the journal. -/
def inJournal : Note → Bool
  | logged _ | asked _ | answered .. => true
  | edited _ | countedRollback | countedOutcome _ => false

/-- Whether an outcome of this kind is counted. -/
def counts (kind : OutcomeKind) : Note → Bool
  | countedOutcome outcome => outcome.kind = kind
  | _ => false

/-- The call that has been made. -/
def asked? : Note → Option Call
  | asked c => some c
  | _ => none

/-- The call that has returned. -/
def returned? : Note → Option Call
  | answered c _ => some c
  | _ => none

theorem count_asked (notes : List Note) (c : Call) :
    (notes.filterMap asked?).count c = notes.count (.asked c) := by
  rw [List.count_filterMap, List.count_eq_countP]
  exact List.countP_congr fun x _ => by cases x <;> simp [asked?]

theorem count_returned (notes : List Note) (c : Call) :
    (notes.filterMap returned?).count c = notes.countP (·.returned? = some c) := by
  rw [List.count_filterMap]
  exact List.countP_congr fun x _ => by simp

end Note

/-- What an entry of the journal tells, apart from the books that a callee found. -/
def Entry.note : Entry → Note
  | .called c _ => .asked c
  | .returned c accepted => .answered c accepted
  | .logged line => .logged line

namespace Scene

/-- What is noted in the journal. -/
def notes (s : Scene σ) : List Note := s.journal.map Entry.note

/-- What has been noted since an earlier scene, apart from the books that callees found. -/
def notedSince (s earlier : Scene σ) : List Note := (s.since earlier).map Entry.note

section Notes

variable (s : Scene σ) (c : Call)

@[simp] theorem notes_log (line : Line) : (s.log line).notes = s.notes ++ [.logged line] := by
  simp [notes, log, note, Entry.note]

@[simp] theorem notes_edit (change : Edit) : (s.edit change).notes = s.notes := rfl

@[simp] theorem notes_moveTo (site : Site σ) : (s.moveTo site).notes = s.notes := rfl

@[simp] theorem notes_note_called (found : Books) :
    (s.note (.called c found)).notes = s.notes ++ [.asked c] := by
  simp [notes, note, Entry.note]

@[simp] theorem notes_noteEnd_ok (reply : c.Reply) :
    (s.noteEnd c (.ok reply)).notes = s.notes ++ [.answered c (c.accepted reply)] := by
  simp [notes, noteEnd, note, Entry.note]

@[simp] theorem notes_noteEnd_error (crash : Crash) :
    (s.noteEnd c (.error crash)).notes = s.notes := rfl

theorem notes_answered_ok (reply : c.Reply) (site : Site σ) :
    (s.answered c (.ok reply) site).notes =
      s.notes ++ [.asked c, .answered c (c.accepted reply)] := by
  simp [answered]

theorem notes_answered_error (crash : Crash) (site : Site σ) :
    (s.answered c (.error crash) site).notes = s.notes ++ [.asked c] := by
  simp [answered]

theorem calls_eq : s.calls = s.notes.filterMap Note.asked? := by
  rw [calls, notes, List.filterMap_map]
  exact List.filterMap_congr fun entry _ => by cases entry <;> rfl

theorem returns_eq : s.returns = s.notes.filterMap Note.returned? := by
  rw [returns, notes, List.filterMap_map]
  exact List.filterMap_congr fun entry _ => by cases entry <;> rfl

variable {s}

theorem notedSince_eq {earlier : Scene σ} {more : List Note}
    (h : s.notes = earlier.notes ++ more) : s.notedSince earlier = more := by
  have hlength : earlier.journal.length = earlier.notes.length := by simp [notes]
  rw [notedSince, since, List.map_drop, hlength]
  change s.notes.drop _ = more
  rw [h, List.drop_left]

end Notes

end Scene

/-- Callees that leave the counts of failures alone. -/
def Environment.KeepsFailures (e : Environment σ) : Prop :=
  (∀ c s m ch, (e.answer c s).2.books.failures m ch = s.books.failures m ch) ∧
    ∀ c mark s result s', e.answerLate c mark s = some (result, s') →
      ∀ m ch, s'.books.failures m ch = s.books.failures m ch

/-- From one tally and scene to another, with these callees, this is what was done. -/
structure Scene.Noted (e : Environment σ) (t : Tally) (s : Scene σ) (told : List Note) (t' : Tally)
    (s' : Scene σ) : Prop where
  notes : s'.notes = s.notes ++ told.filter Note.inJournal
  counters : ∀ kind,
    t'.counter kind = t.counter kind + UInt64.ofNat (told.countP (Note.counts kind))
  rollbacks : t'.rollbacks = t.rollbacks + UInt64.ofNat (told.count .countedRollback)
  failures : e.KeepsFailures → ∀ m ch, s'.books.failures m ch =
    s.books.failures m ch + UInt32.ofNat (told.count (.edited (.countFailure m ch)))

namespace Scene.Noted

variable {e : Environment σ} {t t' t'' : Tally} {s s' s'' : Scene σ} {told more : List Note}

/-- What is not noted leaves the books and the journal as they are, and counts nothing that is
counted here. -/
theorem unnoted (hcounters : ∀ kind, t'.counter kind = t.counter kind)
    (hrollbacks : t'.rollbacks = t.rollbacks) : Noted e t s [] t' s where
  notes := by simp
  counters kind := by simp [hcounters]
  rollbacks := by simp [hrollbacks]
  failures _ _ _ := by simp

theorem refl (e : Environment σ) (t : Tally) (s : Scene σ) : Noted e t s [] t s :=
  unnoted (fun _ => rfl) rfl

theorem trans (h : Noted e t s told t' s') (h' : Noted e t' s' more t'' s'') :
    Noted e t s (told ++ more) t'' s'' where
  notes := by rw [h'.notes, h.notes, List.filter_append, List.append_assoc]
  counters kind := by
    rw [h'.counters, h.counters, List.countP_append, UInt64.ofNat_add, UInt64.add_assoc]
  rollbacks := by
    rw [h'.rollbacks, h.rollbacks, List.count_append, UInt64.ofNat_add, UInt64.add_assoc]
  failures he m ch := by
    rw [h'.failures he, h.failures he, List.count_append, UInt32.ofNat_add, UInt32.add_assoc]

theorem log (line : Line) : Noted e t s [.logged line] t (s.log line) where
  notes := s.notes_log line
  counters kind := by simp [Note.counts]
  rollbacks := by simp
  failures _ _ _ := by simp [Scene.log, Scene.note]

theorem edit (change : Edit) : Noted e t s [.edited change] t (s.edit change) where
  notes := by simp [Note.inJournal]
  counters kind := by simp [Note.counts]
  rollbacks := by simp
  failures _ m ch := by
    simp only [Scene.edit, Books.failures_apply, List.count_singleton, beq_iff_eq,
      Note.edited.injEq]
    split <;> simp

theorem countRollback : Noted e t s [.countedRollback] t.countRollback s where
  notes := by simp [Note.inJournal]
  counters kind := by cases kind <;> simp [Note.counts, Tally.countRollback, Tally.counter]
  rollbacks := by simp [Tally.countRollback]
  failures _ _ _ := by simp

theorem countOutcome (outcome : Outcome) :
    Noted e t s [.countedOutcome outcome] (t.countOutcome outcome) s where
  notes := by simp [Note.inJournal]
  counters kind := by
    rw [Tally.counter_countOutcome]
    by_cases hkind : outcome.kind = kind <;> simp [Note.counts, hkind]
  rollbacks := by simp
  failures _ _ _ := by simp

/-- Callees leave the counts of failures as they found them, if they keep them. -/
theorem of_site (hs : e.KeepsFailures → ∀ m ch, s'.books.failures m ch = s.books.failures m ch)
    (hnotes : s'.notes = s.notes ++ told) (htold : ∀ x ∈ told, x.inJournal) :
    Noted e t s told t s' where
  notes := by rw [hnotes, List.filter_eq_self.mpr htold]
  counters kind := by
    have hnone : told.countP (Note.counts kind) = 0 := by
      refine List.countP_eq_zero.mpr fun x hx => ?_
      have hjournal := htold x hx
      cases x with
      | countedOutcome outcome => cases hjournal
      | _ => simp [Note.counts]
    simp [hnone]
  rollbacks := by
    have hnone : told.count .countedRollback = 0 :=
      List.count_eq_zero.mpr fun hx => by cases htold _ hx
    simp [hnone]
  failures he m ch := by
    have hnone : told.count (.edited (.countFailure m ch)) = 0 :=
      List.count_eq_zero.mpr fun hx => by cases htold _ hx
    rw [hnone, hs he]
    simp

theorem of_call {c : Call} {attempt : Attempt c.Reply} {site : Site σ}
    (ha : e.answer c s.toSite = (attempt, site)) (hs : s'.toSite = site)
    (hnotes : s'.notes = s.notes ++ told) (htold : ∀ x ∈ told, x.inJournal) :
    Noted e t s told t s' :=
  of_site (fun he m ch => by rw [hs, ← he.1 c s.toSite, ha]) hnotes htold

theorem of_late {c : Call} {mark : Nat} {result : Except Crash c.Reply} {site : Site σ}
    (ha : e.answerLate c mark s.toSite = some (result, site)) (hs : s'.toSite = site)
    (hnotes : s'.notes = s.notes ++ told) (htold : ∀ x ∈ told, x.inJournal) :
    Noted e t s told t s' :=
  of_site (fun he m ch => by rw [hs, he.2 c mark s.toSite result site ha]) hnotes htold

end Scene.Noted

namespace Plan

/-- Carried out with some answers to its calls, a plan leaves these notes and ends so. -/
inductive Traces : Plan → List Note → Ending → Prop where
  | finish {outcome} : Traces (finish outcome) [] (.finished outcome)
  | log {line rest told ending} :
      Traces rest told ending → Traces (log line rest) (.logged line :: told) ending
  | edit {change rest told ending} :
      Traces rest told ending → Traces (edit change rest) (.edited change :: told) ending
  | countRollback {rest told ending} :
      Traces rest told ending → Traces (countRollback rest) (.countedRollback :: told) ending
  | check {q rest answer told ending} :
      Traces (rest answer) told ending → Traces (check q rest) told ending
  | crash {c rest crash} : Traces (call c rest) [.asked c] (.crashed crash)
  | waits {d rest mark} :
      Traces (call (.send d) rest) [.asked (.send d)] (.waiting (.send d) mark rest)
  | call {c rest told ending} (reply : c.Reply) : Traces (rest reply) told ending →
      Traces (call c rest) (.asked c :: .answered c (c.accepted reply) :: told) ending

namespace Traces

variable {plan : Plan} {told more : List Note} {ending : Ending}

variable {c : Call} {mark : Nat} {rest : c.Reply → Plan}

/-- A plan that waits goes on when the call has returned. -/
theorem resume {reply : c.Reply} (h : plan.Traces told (.waiting c mark rest))
    (hrest : (rest reply).Traces more ending) :
    plan.Traces (told ++ .answered c (c.accepted reply) :: more) ending := by
  generalize hending : Ending.waiting c mark rest = waiting at h
  induction h with
  | finish | crash => cases hending
  | log _ ih => exact .log (ih hending)
  | edit _ ih => exact .edit (ih hending)
  | countRollback _ ih => exact .countRollback (ih hending)
  | check _ ih => exact .check (ih hending)
  | waits =>
      cases hending
      exact .call reply hrest
  | call reply _ ih => exact .call reply (ih hending)

/-- A plan that waits ends when the call breaks off. -/
theorem crashes {crash : Crash} (h : plan.Traces told (.waiting c mark rest)) :
    plan.Traces told (.crashed crash) := by
  generalize hending : Ending.waiting c mark rest = waiting at h
  induction h with
  | finish | crash => cases hending
  | log _ ih => exact .log (ih hending)
  | edit _ ih => exact .edit (ih hending)
  | countRollback _ ih => exact .countRollback (ih hending)
  | check _ ih => exact .check (ih hending)
  | waits => exact .crash
  | call reply _ ih => exact .call reply (ih hending)

/-- Outcomes are counted by the handler, when the plan has ended. -/
theorem countedOutcome_notMem (h : plan.Traces told ending) (outcome : Outcome) :
    .countedOutcome outcome ∉ told := by
  induction h with
  | call reply _ ih => simpa using ih
  | _ => simp_all

end Traces

/-- A run leaves notes that its plan may leave, and ends as the plan may end then. -/
theorem traces_run (plan : Plan) (e : Environment σ) (t : Tally) (s : Scene σ) :
    ∃ told, plan.Traces told (plan.run e t s).1 ∧
      Scene.Noted e t s told (plan.run e t s).2.1 (plan.run e t s).2.2 := by
  induction plan generalizing t s with
  | finish outcome => exact ⟨[], .finish, .refl e t s⟩
  | log line rest ih =>
      obtain ⟨told, htraces, hnoted⟩ := ih t (s.log line)
      exact ⟨_, .log htraces, (Scene.Noted.log line).trans hnoted⟩
  | edit change rest ih =>
      obtain ⟨told, htraces, hnoted⟩ := ih t (s.edit change)
      exact ⟨_, .edit htraces, (Scene.Noted.edit change).trans hnoted⟩
  | countRollback rest ih =>
      obtain ⟨told, htraces, hnoted⟩ := ih t.countRollback s
      exact ⟨_, .countRollback htraces, Scene.Noted.countRollback.trans hnoted⟩
  | check q rest ih =>
      obtain ⟨told, htraces, hnoted⟩ := ih (q.holds s.books) t s
      exact ⟨told, .check htraces, hnoted⟩
  | call c rest ih =>
      rcases ha : e.answer c s.toSite with ⟨(crash | reply) | mark, site⟩
      · rw [run_call_crash ha]
        exact ⟨[.asked c], .crash, .of_call ha (s.toSite_answered c _ site)
          (s.notes_answered_error c crash site) (by simp [Note.inJournal])⟩
      · rw [run_call_ok ha]
        obtain ⟨told, htraces, hnoted⟩ := ih reply t (s.answered c (.ok reply) site)
        have hcall : Scene.Noted e t s [.asked c, .answered c (c.accepted reply)] t
            (s.answered c (.ok reply) site) :=
          .of_call ha (s.toSite_answered c _ site) (s.notes_answered_ok c reply site)
            (by simp [Note.inJournal])
        exact ⟨_, .call reply htraces, hcall.trans hnoted⟩
      · obtain ⟨d, rfl⟩ := send_of_waiting (Scene.call_waiting ha)
        rw [run_call_waiting ha]
        exact ⟨_, .waits, .of_call ha rfl (s.notes_note_called _ _) (by simp [Note.inJournal])⟩

/-- What the handler notes of the end of a delivery. -/
def Ending.notes (d : Delivery) : Ending → List Note
  | finished outcome => [.countedOutcome outcome]
  | crashed crash =>
      [.logged (.crashed d.message.id d.subscription.channel crash.text),
        .countedOutcome .unhandled]
  | waiting .. => []

/-! ## What the recovery policy may leave -/

/-- The notes of a rollback. -/
def rollbackNotes (d : Delivery) : List Note :=
  (Edit.rollback d.message d.subscription).map .edited ++ [.countedRollback]

/-- An outcome is traced and counted, if neither callee crashes. -/
inductive Announcing (m : Message) (kind : TraceKind) (metric : Metric) (outcome : Outcome) :
    List Note → Ending → Prop where
  | untraced {crash} : Announcing m kind metric outcome [.asked (.trace kind m)] (.crashed crash)
  | uncounted {crash} : Announcing m kind metric outcome
      [.asked (.trace kind m), .answered (.trace kind m) true, .asked (.count metric)]
      (.crashed crash)
  | counted : Announcing m kind metric outcome
      [.asked (.trace kind m), .answered (.trace kind m) true, .asked (.count metric),
        .answered (.count metric) true] (.finished outcome)

/-- A message is moved to the dead letters, if it has somewhere to go. -/
inductive Routing (queue : String) (m : Message) : List Note → Ending → Prop where
  | topic : Routing queue m [.logged (.topicDiscarded m.id m.destination)]
      (.finished (.dropped .topicNoDeadLetter))
  | unmoved {crash} : Routing queue m
      [.logged (.moving m.id m.destination queue),
        .asked (.moveToDeadLetters m m.destination queue)] (.crashed crash)
  | refused (error : MoveError) : Routing queue m
      [.logged (.moving m.id m.destination queue),
        .asked (.moveToDeadLetters m m.destination queue),
        .answered (.moveToDeadLetters m m.destination queue) false,
        .logged (.moveFailed m.id m.destination error)] (.finished (.dropped .deadLetterFailed))
  | moved {told ending} : Announcing m .deadLettered .deadLettered .deadLettered told ending →
      Routing queue m
        (.logged (.moving m.id m.destination queue) ::
          .asked (.moveToDeadLetters m m.destination queue) ::
          .answered (.moveToDeadLetters m m.destination queue) true :: told) ending

/-- A message is requeued or given up, because its subscriber cannot be reached. -/
inductive Recovering (d : Delivery) : List Note → Ending → Prop where
  | unqueued {crash} : Recovering d [.asked (.requeue d.message)] (.crashed crash)
  | uncounted {crash} : Recovering d
      [.asked (.requeue d.message), .answered (.requeue d.message) true,
        .asked (.count .requeued)] (.crashed crash)
  | requeued : Recovering d
      [.asked (.requeue d.message), .answered (.requeue d.message) true,
        .asked (.count .requeued), .answered (.count .requeued) true] (.finished .requeued)
  | disposable : Recovering d [] (.finished (.dropped .disposable))
  | closed : Recovering d [.logged (.subscriberClosed d.message.id d.subscription.channel)]
      (.finished (.dropped .subscriberClosed))

/-- What is done about a delivery that was taken back. -/
inductive Mending (queue : String) (d : Delivery) : List Note → Ending → Prop where
  | routed {told ending} : Routing queue d.message told ending → Mending queue d told ending
  | recovered {told ending} : Recovering d told ending → Mending queue d told ending
  | undiscarded {crash} : Mending queue d [.asked (.trace .staleDiscarded d.message)]
      (.crashed crash)
  | discarded : Mending queue d
      [.asked (.trace .staleDiscarded d.message), .answered (.trace .staleDiscarded d.message) true]
      (.finished (.dropped .stale))

/-- A delivery is taken back untried, or tried once and dealt with as its send is answered. -/
inductive Delivering (queue : String) (d : Delivery) : List Note → Ending → Prop where
  | untried {told ending} : Mending queue d told ending →
      Delivering queue d (rollbackNotes d ++ told) ending
  | waits {mark rest} : Delivering queue d [.asked (.send d)] (.waiting (.send d) mark rest)
  | crashes {crash} : Delivering queue d [.asked (.send d)] (.crashed crash)
  | accepted {told ending} : Announcing d.message .dispatched .sent .delivered told ending →
      Delivering queue d (.asked (.send d) :: .answered (.send d) true :: told) ending
  | unclassified (reason : String) : Delivering queue d
      [.asked (.send d), .answered (.send d) false, .logged (.unexpectedFailure d.message.id
        d.subscription.channel (.unexpected reason))] (.finished .unhandled)
  | refused {line told ending} (hline : line.level = .trace) : Mending queue d told ending →
      Delivering queue d
        (.asked (.send d) :: .answered (.send d) false :: .logged line ::
          (rollbackNotes d ++ told)) ending

namespace Traces

variable {queue : String} {d : Delivery} {failed : Bool} {told : List Note} {ending : Ending}

theorem announcing {m : Message} {kind : TraceKind} {metric : Metric} {outcome : Outcome}
    (h : (trace kind m (count metric (.finish outcome))).Traces told ending) :
    Announcing m kind metric outcome told ending := by
  cases h with
  | crash => exact .untraced
  | call reply h =>
      cases h with
      | crash => exact .uncounted
      | call reply h =>
          cases h
          exact .counted

theorem routing {m : Message} (h : (deadLetter queue m).Traces told ending) :
    Routing queue m told ending := by
  unfold deadLetter at h
  split at h
  · cases h with
    | log h =>
        cases h
        exact .topic
  · cases h with
    | log h =>
        cases h with
        | crash => exact .unmoved
        | call reply h =>
            cases reply with
            | ok _ => exact .moved h.announcing
            | error error =>
                cases h with
                | log h =>
                    cases h
                    exact .refused error

theorem recovering (h : (recover d).Traces told ending) : Recovering d told ending := by
  unfold recover at h
  split at h
  · cases h with
    | crash => exact .unqueued
    | call reply h =>
        cases h with
        | crash => exact .uncounted
        | call reply h =>
            cases h
            exact .requeued
  · cases h with
    | @check _ _ answer _ _ h =>
        cases answer with
        | true =>
            cases h
            exact .disposable
        | false =>
            cases h with
            | log h =>
                cases h
                exact .closed

/-- A rollback leaves its notes, and then what comes after it. -/
theorem of_rollback {rest : Plan} (h : (rollback d rest).Traces told ending) :
    ∃ more, told = rollbackNotes d ++ more ∧ rest.Traces more ending := by
  cases h with
  | edit h =>
      cases h with
      | edit h =>
          cases h with
          | edit h =>
              cases h with
              | countRollback h => exact ⟨_, rfl, h⟩

theorem sent {reply : Except SendFailure Unit}
    (h : (afterSend queue d reply).Traces told ending) :
    Delivering queue d
      (.asked (.send d) :: .answered (.send d) ((Call.send d).accepted reply) :: told) ending := by
  cases reply with
  | ok _ => exact .accepted h.announcing
  | error failure =>
      cases failure with
      | ruleViolation reason =>
          cases h with
          | log h =>
              obtain ⟨more, rfl, hrest⟩ := h.of_rollback
              exact .refused rfl (.routed hrest.routing)
      | transient reason =>
          cases h with
          | log h =>
              obtain ⟨more, rfl, hrest⟩ := h.of_rollback
              exact .refused rfl (.recovered hrest.recovering)
      | unexpected reason =>
          cases h with
          | log h =>
              cases h
              exact .unclassified reason

/-- The recovery policy leaves nothing else. -/
theorem delivering (h : (dispatch queue d failed).Traces told ending) :
    Delivering queue d told ending := by
  unfold dispatch at h
  split at h
  · obtain ⟨more, rfl, hrest⟩ := h.of_rollback
    exact .untried (.routed hrest.routing)
  · cases h with
    | @check _ _ stale _ _ h =>
        cases stale with
        | true =>
            obtain ⟨more, rfl, hrest⟩ := h.of_rollback
            refine .untried ?_
            cases hrest with
            | crash => exact .undiscarded
            | call reply hrest =>
                cases hrest
                exact .discarded
        | false =>
            cases h with
            | @check _ _ active _ _ h =>
                cases active with
                | false =>
                    obtain ⟨more, rfl, hrest⟩ := h.of_rollback
                    exact .untried (.recovered hrest.recovering)
                | true =>
                    cases h with
                    | crash => exact .crashes
                    | waits => exact .waits
                    | call reply h => exact h.sent

end Traces

section Views

variable {queue : String} {d : Delivery} {told : List Note} {ending : Ending}

theorem Announcing.outcome?_ne_none {m : Message} {kind : TraceKind} {metric : Metric}
    {outcome : Outcome} (h : Announcing m kind metric outcome told ending) :
    ending.outcome? ≠ none := by
  cases h <;> simp [Ending.outcome?]

theorem Mending.outcome?_ne_none (h : Mending queue d told ending) : ending.outcome? ≠ none := by
  cases h with
  | routed h =>
      cases h with
      | moved h => exact h.outcome?_ne_none
      | _ => simp [Ending.outcome?]
  | recovered h => cases h <;> simp [Ending.outcome?]
  | _ => simp [Ending.outcome?]

/-- As long as a delivery waits, its send is all that was done. -/
theorem Delivering.eq_of_waiting (h : Delivering queue d told ending)
    (hending : ending.outcome? = none) : told = [.asked (.send d)] := by
  cases h with
  | untried h => exact absurd hending h.outcome?_ne_none
  | waits => rfl
  | crashes => cases hending
  | accepted h => exact absurd hending h.outcome?_ne_none
  | unclassified reason => cases hending
  | refused hline h => exact absurd hending h.outcome?_ne_none

theorem Announcing.inJournal {m : Message} {kind : TraceKind} {metric : Metric}
    {outcome : Outcome} (h : Announcing m kind metric outcome told ending) :
    ∀ x ∈ told, x.inJournal := by
  cases h <;> simp [Note.inJournal]

/-- What is done about a delivery that was taken back does not take it back again. -/
theorem Mending.inJournal (h : Mending queue d told ending) : ∀ x ∈ told, x.inJournal := by
  cases h with
  | routed h =>
      cases h with
      | moved h => simpa [Note.inJournal] using h.inJournal
      | _ => simp [Note.inJournal]
  | recovered h => cases h <;> simp [Note.inJournal]
  | _ => simp [Note.inJournal]

theorem filter_rollbackNotes (d : Delivery) :
    (rollbackNotes d).filter (!·.inJournal) = rollbackNotes d := rfl

/-- What the journal does not tell of a delivery is that it was taken back, once at most. -/
theorem Delivering.unrecorded (h : Delivering queue d told ending) :
    told.filter (!·.inJournal) = [] ∨ told.filter (!·.inJournal) = rollbackNotes d := by
  have hnone {more : List Note} (hmore : ∀ x ∈ more, x.inJournal) :
      more.filter (!·.inJournal) = [] := by
    simpa [List.filter_eq_nil_iff] using hmore
  cases h with
  | untried h =>
      rw [List.filter_append, hnone h.inJournal, filter_rollbackNotes]
      exact .inr (List.append_nil _)
  | waits | crashes | unclassified reason => exact .inl rfl
  | accepted h => exact .inl (hnone (by simpa [Note.inJournal] using h.inJournal))
  | @refused line _ _ _ h =>
      right
      change (rollbackNotes d ++ _).filter (!·.inJournal) = _
      rw [List.filter_append, hnone h.inJournal, filter_rollbackNotes, List.append_nil]

end Views

end Plan

end ShardedDelivery
