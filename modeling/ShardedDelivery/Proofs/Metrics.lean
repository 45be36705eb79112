import ShardedDelivery.Proofs.Crew

/-! # Metrics and traces

A handler counts an outcome after its callees have been told of it, and nothing that may crash
stands between the last of them and the counter. So the calls of the metrics sink that returned are
what the handlers have counted, in every run of a crew. Whether the reports come out then or are
lost makes no difference to that. -/

namespace ShardedDelivery

variable {σ : Type}

/-- The outcome that a rate counts. -/
def Metric.outcome : Metric → Outcome
  | sent => .delivered
  | requeued => .requeued
  | deadLettered => .deadLettered

/-- Whether this is a trace of that kind. -/
def Call.traces (kind : TraceKind) : Call → Bool
  | trace k _ => k = kind
  | _ => false

namespace Note

/-- Whether a rate was counted, and that returned. -/
def rated (metric : Metric) (x : Note) : Bool := x.returned? = some (.count metric)

/-- Whether a trace of this kind has returned. -/
def traced (kind : TraceKind) : Note → Bool
  | answered c _ => c.traces kind
  | _ => false

/-- The rates, the traces and the outcomes among some notes agree. -/
structure Agree (told : List Note) : Prop where
  rated : ∀ metric, told.countP (rated metric) = told.count (.countedOutcome metric.outcome)
  discarded : told.countP (traced .staleDiscarded) = told.count (.countedOutcome (.dropped .stale))
  dispatched : told.countP (traced .dispatched) = told.count (.asked (.count .sent))
  moved : told.countP (traced .deadLettered) = told.count (.asked (.count .deadLettered))

theorem Agree.append {told more : List Note} (h : Agree told) (h' : Agree more) :
    Agree (told ++ more) where
  rated metric := by rw [List.countP_append, List.count_append, h.rated, h'.rated]
  discarded := by rw [List.countP_append, List.count_append, h.discarded, h'.discarded]
  dispatched := by rw [List.countP_append, List.count_append, h.dispatched, h'.dispatched]
  moved := by rw [List.countP_append, List.count_append, h.moved, h'.moved]

end Note

/-! ## Turns -/

namespace Plan

open Note

variable {queue : String} {d : Delivery} {told : List Note} {ending : Ending}

/-- An outcome is counted if its rate was, and traced if its rate was to be counted. -/
theorem Announcing.agree {m : Message}
    (h : Announcing m .dispatched .sent .delivered told ending ∨
      Announcing m .deadLettered .deadLettered .deadLettered told ending) :
    Agree (told ++ ending.notes d) := by
  rcases h with h | h <;> cases h <;> exact ⟨fun metric => by cases metric <;> rfl, rfl, rfl, rfl⟩

theorem Mending.agree (h : Mending queue d told ending) : Agree (told ++ ending.notes d) := by
  cases h with
  | routed h =>
      cases h with
      | moved h =>
          have hmoved : Agree [.logged (.moving d.message.id d.message.destination queue),
              .asked (.moveToDeadLetters d.message d.message.destination queue),
              .answered (.moveToDeadLetters d.message d.message.destination queue) true] :=
            ⟨fun metric => by cases metric <;> rfl, rfl, rfl, rfl⟩
          exact hmoved.append (Announcing.agree (.inr h))
      | _ => exact ⟨fun metric => by cases metric <;> rfl, rfl, rfl, rfl⟩
  | recovered h => cases h <;> exact ⟨fun metric => by cases metric <;> rfl, rfl, rfl, rfl⟩
  | _ => exact ⟨fun metric => by cases metric <;> rfl, rfl, rfl, rfl⟩

theorem Delivering.agree {outcome : Outcome} (h : Delivering queue d told ending)
    (houtcome : ending.outcome? = some outcome) : Agree (told ++ ending.notes d) := by
  have hback : Agree (rollbackNotes d) := ⟨fun metric => by cases metric <;> rfl, rfl, rfl, rfl⟩
  cases h with
  | untried h =>
      rw [List.append_assoc]
      exact hback.append h.agree
  | waits => cases houtcome
  | crashes | unclassified reason => exact ⟨fun metric => by cases metric <;> rfl, rfl, rfl, rfl⟩
  | accepted h =>
      have hsent : Agree [.asked (.send d), .answered (.send d) true] :=
        ⟨fun metric => by cases metric <;> rfl, rfl, rfl, rfl⟩
      exact hsent.append (Announcing.agree (.inl h))
  | @refused line more _ _ h =>
      have hrefused : Agree [.asked (.send d), .answered (.send d) false, .logged line] :=
        ⟨fun metric => by cases metric <;> rfl, rfl, rfl, rfl⟩
      have hmended := hback.append h.agree
      rw [← List.append_assoc] at hmended
      exact hrefused.append hmended

/-- Only calls that were made have returned. -/
theorem Traces.returned_sublist {plan : Plan} (h : plan.Traces told ending) :
    (told.filterMap Note.returned?).Sublist (told.filterMap Note.asked?) := by
  induction h with
  | finish => exact .slnil
  | crash | waits => exact List.nil_sublist _
  | log _ ih | edit _ ih | countRollback _ ih | check _ ih => exact ih
  | call reply _ ih => exact ih.cons_cons _

end Plan

theorem Showing.Undergoes.agree {v : Showing} {told : List Note} (h : v.Undergoes told) :
    Note.Agree told := by
  cases h with
  | foreign => exact ⟨fun _ => rfl, rfl, rfl, rfl⟩
  | reported hslot htraces houtcome => exact htraces.delivering.agree houtcome

theorem Showing.Undergoes.rated_le {v : Showing} {told : List Note} (h : v.Undergoes told)
    (metric : Metric) : told.countP (Note.rated metric) ≤ told.count (.asked (.count metric)) := by
  cases h with
  | foreign => exact Nat.zero_le _
  | @reported d told ending outcome hslot htraces =>
      have hnotes : (ending.notes d).countP (Note.rated metric) = 0 := by
        cases ending <;> rfl
      have hle := htraces.returned_sublist.count_le (.count metric)
      rw [Note.count_asked, Note.count_returned] at hle
      rw [List.countP_append, List.count_append, hnotes]
      exact hle.trans (Nat.le_add_right _ _)

/-! ## Runs -/

namespace Crew

section Closed

variable {closed : List (Showing × List Note)} (hundergone : ∀ v ∈ closed, v.1.Undergoes v.2)
include hundergone

theorem agree_closed : Note.Agree (closed.flatMap Prod.snd) :=
  notes_closed ⟨fun _ => rfl, rfl, rfl, rfl⟩ .append fun v hv => (hundergone v hv).agree

theorem rated_le_closed (metric : Metric) :
    (closed.flatMap Prod.snd).countP (Note.rated metric) ≤
      (closed.flatMap Prod.snd).count (.asked (.count metric)) := by
  refine notes_closed (p := fun told => told.countP (Note.rated metric) ≤
    told.count (.asked (.count metric))) le_rfl (fun {told more} h h' => ?_)
    fun v hv => (hundergone v hv).rated_le metric
  rw [List.countP_append, List.count_append]
  exact Nat.add_le_add h h'

theorem count_outcome_closed (outcome : Outcome) :
    (closed.flatMap Prod.snd).count (.countedOutcome outcome) =
      (closed.map Prod.fst).countP (·.outcome? = some outcome) := by
  induction closed with
  | nil => rfl
  | cons v closed ih =>
      have hfirst := (hundergone v List.mem_cons_self).count_outcome outcome
      have hothers := ih fun w hw => hundergone w (List.mem_cons_of_mem _ hw)
      rw [List.flatMap_cons, List.count_append, hfirst, hothers, List.map_cons, List.countP_cons,
        Nat.add_comm]
      simp

end Closed

section Views

variable {rules : Rules σ} {posts : List (Nat × Nat × String)} {site : Site σ} {c : Crew σ}
  {closed : List (Showing × List Note)} (h : Stretch rules (opening posts site) c closed)
include h

theorem Stretch.count_rated (metric : Metric) : c.scene.returns.count (.count metric) =
    (closed.flatMap Prod.snd).countP (Note.rated metric) := by
  rw [h.returns, Note.count_returned]
  rfl

theorem Stretch.countP_traced (kind : TraceKind) : c.scene.returns.countP (Call.traces kind) =
    (closed.flatMap Prod.snd).countP (Note.traced kind) := by
  rw [h.returns, List.countP_filterMap]
  exact List.countP_congr fun x _ => by cases x <;> simp [Note.returned?, Note.traced]

/-- A counter is the number of times that the rate of its outcome was counted. -/
theorem Stretch.counter_rated (metric : Metric) : c.tally.counter metric.outcome.kind =
    UInt64.ofNat (c.scene.returns.count (.count metric)) := by
  have hkind : (closed.flatMap Prod.snd).countP (Note.counts metric.outcome.kind) =
      (closed.flatMap Prod.snd).count (.countedOutcome metric.outcome) := by
    refine List.countP_congr fun x _ => ?_
    cases x with
    | countedOutcome outcome =>
        cases metric <;> cases outcome <;> simp [Note.counts, Metric.outcome, Outcome.kind]
    | _ => simp [Note.counts]
  have hcounter := h.counters metric.outcome.kind
  rw [tally_opening, hkind, ← (agree_closed h.undergone).rated] at hcounter
  rw [hcounter, h.count_rated]
  cases metric <;> exact UInt64.zero_add _

end Views

theorem toNat_ofNat_le {n k : Nat} (h : n ≤ k) : (UInt64.ofNat n).toNat ≤ k := by
  rw [UInt64.toNat_ofNat']
  exact (Nat.mod_le _ _).trans h

variable {posts : List (Nat × Nat × String)} {site : Site σ} {c : Crew σ}

/-- Whatever crashes and however many turns are given up, each handler counter is the number of
times that the rate of its outcome was counted, and as many messages are reported to be discarded as
this was traced, if none of these reports was lost. Deliveries and dead letters are traced at least
as often as they are counted, and just as often if every call of the metrics sink has returned. -/
theorem metrics_agree (hrun : Run .free (opening posts site) c) :
    c.tally.delivered = UInt64.ofNat (c.scene.returns.count (.count .sent)) ∧
      c.tally.requeued = UInt64.ofNat (c.scene.returns.count (.count .requeued)) ∧
      c.tally.deadLettered = UInt64.ofNat (c.scene.returns.count (.count .deadLettered)) ∧
      c.scene.returns.countP (Call.traces .staleDiscarded) =
        c.reports.countP (·.outcome = .dropped .stale) +
          c.lost.countP (·.outcome = .dropped .stale) ∧
      c.tally.delivered.toNat ≤ c.scene.returns.countP (Call.traces .dispatched) ∧
      c.tally.deadLettered.toNat ≤ c.scene.returns.countP (Call.traces .deadLettered) ∧
      ((∀ metric, c.scene.calls.count (.count metric) = c.scene.returns.count (.count metric)) →
        c.tally.delivered = UInt64.ofNat (c.scene.returns.countP (Call.traces .dispatched)) ∧
        c.tally.deadLettered =
          UInt64.ofNat (c.scene.returns.countP (Call.traces .deadLettered))) := by
  obtain ⟨closed, hstretch⟩ := hrun.closed
  have hagree := agree_closed hstretch.undergone
  have hcounter := hstretch.counter_rated
  have hdispatched : c.scene.returns.countP (Call.traces .dispatched) =
      c.scene.calls.count (.count .sent) := by
    rw [hstretch.countP_traced, hagree.dispatched, hstretch.count_calls rfl]
  have hmoved : c.scene.returns.countP (Call.traces .deadLettered) =
      c.scene.calls.count (.count .deadLettered) := by
    rw [hstretch.countP_traced, hagree.moved, hstretch.count_calls rfl]
  have hle (metric : Metric) :
      c.scene.returns.count (.count metric) ≤ c.scene.calls.count (.count metric) := by
    rw [hstretch.count_rated, hstretch.count_calls rfl]
    exact rated_le_closed hstretch.undergone metric
  refine ⟨hcounter .sent, hcounter .requeued, hcounter .deadLettered, ?_, ?_, ?_, fun hsink => ?_⟩
  · have hpast : c.past = closed.map Prod.fst := by simpa using hstretch.past
    rw [hstretch.countP_traced, hagree.discarded, count_outcome_closed hstretch.undergone, ← hpast,
      ← countP_made, made, List.countP_filterMap]
    exact List.countP_congr fun v _ => by cases hv : v.result.made? <;> simp [Showing.outcome?, hv]
  · rw [hdispatched]
    exact (congrArg UInt64.toNat (hcounter .sent)).trans_le (toNat_ofNat_le (hle .sent))
  · rw [hmoved]
    exact (congrArg UInt64.toNat (hcounter .deadLettered)).trans_le
      (toNat_ofNat_le (hle .deadLettered))
  · rw [hdispatched, hmoved, hsink, hsink]
    exact ⟨hcounter .sent, hcounter .deadLettered⟩

/-- Meanwhile, the metrics sink breaks. -/
def Rehearsal.breakSink (s : Scene Scripted.Cast) : Site Scripted.Cast :=
  { s with outside := { s.outside with metricsFault := .crashing } }

open Shift.Rehearsal Crew.Rehearsal in
/-- One order is requeued and one becomes a dead letter, while a bill waits that is given up. Then
the sink breaks: the next dead letter is traced, but not counted. -/
theorem metrics_agree_rehearsal :
    ∃ c c', Run .free Rehearsal.start c ∧ Run .free Rehearsal.start c' ∧
      c.tally.requeued = 1 ∧ c.tally.deadLettered = 1 ∧
      c.tally.deadLettered = UInt64.ofNat (c.scene.returns.countP (Call.traces .deadLettered)) ∧
      c'.tally.deadLettered = UInt64.ofNat (c'.scene.returns.count (.count .deadLettered)) ∧
      c'.scene.returns.count (.count .deadLettered) = 1 ∧
      c'.scene.returns.countP (Call.traces .deadLettered) = 2 ∧ c'.tally.unhandled = 1 := by
  have he : Rules.free.callees (Scripted.environment true) := trivial
  have run : Run .free Rehearsal.start _ := .refl
  have run := run.tail (.waits 1 rfl he (.holding bill false) 0 true rfl rfl)
  have run := run.tail (.shown 0 rfl he (.holding (order 1) false) 0 true false (by decide))
  have run := run.tail (.shown 0 rfl he (.holding (order 2) false) 1 true false (by decide))
  have hsink (s : Scene Scripted.Cast) : Rules.free.others s.toSite (breakSink s) := trivial
  have later := run.tail (.meanwhile _ (hsink _))
  have later := later.tail (.shown 0 rfl he (.holding (order 3) false) 2 true false (by decide))
  obtain ⟨-, -, -, -, -, -, hequal⟩ := metrics_agree run
  obtain ⟨-, -, hmoved, -⟩ := metrics_agree later
  have hreturned := hequal fun metric => by cases metric <;> decide
  exact ⟨_, _, run, later, by decide, by decide, hreturned.2, hmoved, by decide, by decide,
    by decide⟩

end Crew

end ShardedDelivery
