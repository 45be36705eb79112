import ShardedDelivery.Proofs.Plan.Phases
import ShardedDelivery.Proofs.Tally

/-! # Counters

The counters of a handler agree with what came of the events that it was shown, after every one of
them and whatever its callees do. Reports that were lost are counted like those that came out. -/

namespace ShardedDelivery

variable {σ : Type}

/-- The outcomes that are counted apart. -/
inductive OutcomeKind where
  | delivered
  | requeued
  | deadLettered
  | dropped
  | unhandled
deriving DecidableEq, Repr

/-- The kind that an outcome is counted under. -/
def Outcome.kind : Outcome → OutcomeKind
  | .delivered => .delivered
  | .requeued => .requeued
  | .deadLettered => .deadLettered
  | .dropped _ => .dropped
  | .unhandled => .unhandled

/-- A slot that a handler was shown, and what came of the event. -/
structure Visit where
  slot : Slot
  result : Upshot

namespace Visit

/-- The kind of outcome that was reported, if a report came out. -/
def kind? (v : Visit) : Option OutcomeKind := v.result.report?.map (·.outcome.kind)

/-- The kind of outcome of the report that was lost, if one was. -/
def lostKind? (v : Visit) : Option OutcomeKind := v.result.lost?.map (·.outcome.kind)

/-- No more reports came out and were lost than there were visits. -/
theorem countP_kind_le (past : List Visit) (kind : OutcomeKind) :
    (past.countP fun v => v.kind? = some kind) + (past.countP fun v => v.lostKind? = some kind) ≤
      past.length := by
  have hread (report? : Visit → Option Report) :
      (past.filterMap report?).countP (·.outcome.kind = kind) =
        past.countP fun v => (report? v).map (·.outcome.kind) = some kind := by
    rw [List.countP_filterMap]
    exact List.countP_congr fun v _ => by cases report? v <;> simp
  have hmade := Upshot.countP_made Visit.result (·.outcome.kind = kind) past
  rw [hread fun v => v.result.report?, hread fun v => v.result.lost?] at hmade
  exact hmade.symm.trans_le (List.countP_le_length.trans (List.length_filterMap_le ..))

end Visit

namespace Tally

/-- The counter of a kind of outcome. -/
def counter (t : Tally) : OutcomeKind → UInt64
  | .delivered => t.delivered
  | .requeued => t.requeued
  | .deadLettered => t.deadLettered
  | .dropped => t.dropped
  | .unhandled => t.unhandled

/-- Counts a rollback if there was one. -/
def countBack (t : Tally) (back : Bool) : Tally := if back then t.countRollback else t

section Counting

variable (t : Tally) (outcome : Outcome) (kind : OutcomeKind) (back : Bool)

@[simp] theorem counter_countSeen : t.countSeen.counter kind = t.counter kind := by
  cases kind <;> rfl

@[simp] theorem counter_countOwned : t.countOwned.counter kind = t.counter kind := by
  cases kind <;> rfl

@[simp] theorem counter_countBack : (t.countBack back).counter kind = t.counter kind := by
  cases back <;> cases kind <;> rfl

@[simp] theorem seen_countBack : (t.countBack back).seen = t.seen := by
  cases back <;> rfl

@[simp] theorem owned_countBack : (t.countBack back).owned = t.owned := by
  cases back <;> rfl

theorem counter_countOutcome :
    (t.countOutcome outcome).counter kind =
      if outcome.kind = kind then t.counter kind + 1 else t.counter kind := by
  cases outcome <;> cases kind <;> rfl

@[simp] theorem seen_countOutcome : (t.countOutcome outcome).seen = t.seen := by
  cases outcome <;> rfl

@[simp] theorem owned_countOutcome : (t.countOutcome outcome).owned = t.owned := by
  cases outcome <;> rfl

@[simp] theorem rollbacks_countOutcome : (t.countOutcome outcome).rollbacks = t.rollbacks := by
  cases outcome <;> rfl

theorem toNat_add_one_of_lt {n : UInt64} (h : n.toNat + 1 < 2 ^ 64) :
    (n + 1).toNat = n.toNat + 1 := by
  rw [UInt64.toNat_add, UInt64.toNat_one]
  omega

variable {t}

theorem toNat_counter_countOutcome (h : (t.counter kind).toNat + 1 < 2 ^ 64) :
    ((t.countOutcome outcome).counter kind).toNat =
      (t.counter kind).toNat + if outcome.kind = kind then 1 else 0 := by
  rw [counter_countOutcome]
  split
  · exact toNat_add_one_of_lt h
  · rfl

theorem toNat_rollbacks_countBack (h : t.rollbacks.toNat + 1 < 2 ^ 64) :
    (t.countBack back).rollbacks.toNat = t.rollbacks.toNat + back.toNat := by
  cases back with
  | false => rfl
  | true => exact toNat_add_one_of_lt h

end Counting

/-- What is counted in a turn, by whether the handler owned the slot and by what became of it. -/
inductive Counts (t : Tally) : Bool → Handled → Tally → Prop where
  | foreign : Counts t false .foreign t.countSeen
  | waiting : Counts t true .waiting t.countSeen.countOwned
  /-- What was recovered was taken back, and what was delivered was not. -/
  | reported (report : Report) (back : Bool)
      (hrecovery : report.outcome.isRecovery = true → back = true)
      (hdelivered : report.outcome = .delivered → back = false) :
      Counts t true (.reported report)
        ((t.countSeen.countOwned.countBack back).countOutcome report.outcome)

end Tally

/-- What a delivery that ends so has counted: that it was taken back if it was recovered, and
otherwise at most if it crashed. -/
def Plan.Ending.Bills (t t' : Tally) : Plan.Ending → Prop
  | finished outcome => t' = if outcome.isRecovery then t.countRollback else t
  | crashed _ => t' = t ∨ t' = t.countRollback
  | waiting .. => t' = t

namespace Plan

variable {e : Environment σ} {queue : String} {d : Delivery} {t : Tally} {s : Scene σ}

theorem Mends.bills {rest : Plan} (h : rest.Mends d) (e : Environment σ) (t : Tally)
    (s : Scene σ) :
    (rest.run e t.countRollback s).1.Bills t (rest.run e t.countRollback s).2.1 := by
  obtain ⟨htally, ⟨outcome, ho, hend⟩ | ⟨crash, hend⟩⟩ :=
    Coasts.ending h (fun c hc => hc.1) e t.countRollback s
  · rw [hend, htally, Ending.Bills, if_pos ho]
  · rw [hend, htally]
    exact .inr rfl

theorem Reports.bills {rest : Plan} (h : rest.Reports) (e : Environment σ) (t : Tally)
    (s : Scene σ) : (rest.run e t s).1.Bills t (rest.run e t s).2.1 := by
  obtain ⟨htally, ⟨outcome, rfl, hend⟩ | ⟨crash, hend⟩⟩ :=
    Coasts.ending h (fun c hc => hc.1) e t s
  · rw [hend, htally]
    rfl
  · rw [hend, htally]
    exact .inl rfl

theorem Goes.bills {course : Ending × Tally × Scene σ} (h : Goes e queue d t s course) :
    course.1.Bills t course.2.1 := by
  cases h with
  | untried hrest => exact hrest.bills e t _
  | waits hsend => rfl
  | crashes hsend => exact .inl rfl
  | accepted hsend hrest => exact hrest.bills e t _
  | unclassified hsend => rfl
  | refused hsend hfailure hrest => exact hrest.bills e t _

end Plan

namespace Handler

variable {h : Handler} {e : Environment σ} {slot : Slot} {d : Delivery} {s : Scene σ}

/-- A turn counts what becomes of the event, and changes nothing else about the handler. -/
theorem counts_handle (h : Handler) (e : Environment σ) (slot : Slot) (sequence : Nat)
    (last : Bool) (s : Scene σ) :
    ∃ t, (h.handle e slot sequence last s).handler = { h with tally := t } ∧
      h.tally.Counts (h.owns slot) (h.handle e slot sequence last s).result t := by
  cases hclaim : h.claim? slot with
  | none =>
      have howns : h.owns slot = false := by
        rw [← Bool.not_eq_true, owns_iff]
        simp [hclaim]
      rw [handle_of_foreign hclaim, howns]
      exact ⟨_, rfl, .foreign⟩
  | some d =>
      have howns : h.owns slot = true := owns_iff.mpr ⟨d, hclaim⟩
      have hbills := (Plan.goes_dispatch e h.queue d slot.failed h.tally.countSeen.countOwned
        (h.see sequence last s).2).bills
      rw [handle_of_claim hclaim, howns, course]
      rcases hrun : (Plan.dispatch h.queue d slot.failed).run e h.tally.countSeen.countOwned
        (h.see sequence last s).2 with ⟨ending, t, y⟩
      rw [hrun] at hbills
      cases ending with
      | finished outcome =>
          refine ⟨_, rfl, ?_⟩
          simp only [Plan.Ending.Bills] at hbills
          rw [hbills]
          refine .reported ⟨_, _, outcome⟩ outcome.isRecovery id ?_
          rintro rfl
          rfl
      | crashed crash =>
          refine ⟨_, rfl, ?_⟩
          rcases hbills with rfl | rfl
          · exact .reported ⟨_, _, .unhandled⟩ false (by simp [Outcome.isRecovery]) (by simp)
          · exact .reported ⟨_, _, .unhandled⟩ true (by simp) (by simp)
      | waiting c mark rest =>
          obtain rfl : t = h.tally.countSeen.countOwned := hbills
          exact ⟨_, rfl, .waiting⟩

/-- The handlers that a given one can become by being shown slots one after another, each with the
visits so far. Every time, callees and scene may be any, and to let go of the delivery may crash or
not. A visit that is left `waiting` was given up then; one whose send is answered late is one of
callees that are waited for. -/
inductive History (σ : Type) (start : Handler) : List Visit → Handler → Prop where
  | start : History σ start [] start
  | visit {past h} (e : Environment σ) (slot : Slot) (sequence : Nat) (last : Bool) (s : Scene σ)
      (crashes : Bool) : History σ start past h →
      History σ start (past ++ [⟨slot, (h.handle e slot sequence last s).result.letGo crashes⟩])
        (h.handle e slot sequence last s).handler

/-- The counters of a handler agree with its visits. -/
structure Conserves (start : Handler) (past : List Visit) (t : Tally) : Prop where
  seen : t.seen.toNat = past.length
  owned : t.owned.toNat = past.countP fun v => start.owns v.slot
  /-- Every counter of outcomes is the number of reports of its kind, together with those that were
  lost. -/
  reports : ∀ kind, (t.counter kind).toNat =
    (past.countP fun v => v.kind? = some kind) + past.countP fun v => v.lostKind? = some kind
  /-- What was owned came to an outcome or is still waiting for its send. -/
  balance : t.owned.toNat =
    t.delivered.toNat + t.requeued.toNat + t.deadLettered.toNat + t.dropped.toNat +
      t.unhandled.toNat + past.countP fun v => v.result = .waiting
  /-- What was recovered was taken back. -/
  recovered : t.requeued.toNat + t.deadLettered.toNat + t.dropped.toNat ≤ t.rollbacks.toNat
  /-- What was taken back was recovered, or crashed after that. -/
  takenBack : t.rollbacks.toNat ≤
    t.requeued.toNat + t.deadLettered.toNat + t.dropped.toNat + t.unhandled.toNat

namespace Conserves

variable {start : Handler} {past : List Visit} {t t' : Tally} {slot : Slot} {result : Handled}

/-! No counter exceeds the number of visits, so as long as these can be counted, nothing wraps. -/

theorem counter_le (h : start.Conserves past t) (kind : OutcomeKind) :
    (t.counter kind).toNat ≤ past.length :=
  (h.reports kind).trans_le (Visit.countP_kind_le past kind)

theorem seen_succ (h : start.Conserves past t) (hlength : past.length + 1 < 2 ^ 64) :
    (t.seen + 1).toNat = past.length + 1 := by
  rw [Tally.toNat_add_one_of_lt (by rw [h.seen]; exact hlength), h.seen]

theorem owned_succ (h : start.Conserves past t) (hlength : past.length + 1 < 2 ^ 64) :
    (t.owned + 1).toNat = t.owned.toNat + 1 := by
  have hle : t.owned.toNat ≤ past.length := h.owned ▸ List.countP_le_length
  exact Tally.toNat_add_one_of_lt (by omega)

theorem rollbacks_le (h : start.Conserves past t) : t.rollbacks.toNat ≤ past.length := by
  have hle : t.owned.toNat ≤ past.length := h.owned ▸ List.countP_le_length
  have hbalance := h.balance
  have htaken := h.takenBack
  omega

theorem foreign (h : start.Conserves past t) (hlength : past.length + 1 < 2 ^ 64)
    (howns : start.owns slot = false) :
    start.Conserves (past ++ [⟨slot, .foreign⟩]) t.countSeen where
  seen := by simp [Tally.countSeen, h.seen_succ hlength]
  owned := by simp [Tally.countSeen, h.owned, howns]
  reports := by simp [h.reports, Visit.kind?, Visit.lostKind?, Upshot.report?, Upshot.lost?]
  balance := by simpa [Tally.countSeen] using h.balance
  recovered := h.recovered
  takenBack := h.takenBack

theorem waiting (h : start.Conserves past t) (hlength : past.length + 1 < 2 ^ 64)
    (howns : start.owns slot = true) :
    start.Conserves (past ++ [⟨slot, .waiting⟩]) t.countSeen.countOwned where
  seen := by simp [Tally.countSeen, Tally.countOwned, h.seen_succ hlength]
  owned := by
    simp [Tally.countSeen, Tally.countOwned, h.owned_succ hlength, h.owned, howns]
  reports := by simp [h.reports, Visit.kind?, Visit.lostKind?, Upshot.report?, Upshot.lost?]
  balance := by
    simp [Tally.countSeen, Tally.countOwned, h.owned_succ hlength, h.balance]
    omega
  recovered := h.recovered
  takenBack := h.takenBack

theorem counter_succ (h : start.Conserves past t) (hlength : past.length + 1 < 2 ^ 64) (back : Bool)
    (outcome : Outcome) (kind : OutcomeKind) :
    (((t.countSeen.countOwned.countBack back).countOutcome outcome).counter kind).toNat =
      (t.counter kind).toNat + if outcome.kind = kind then 1 else 0 := by
  have hle := h.counter_le kind
  rw [Tally.toNat_counter_countOutcome] <;> simp
  omega

theorem rollbacks_succ (h : start.Conserves past t) (hlength : past.length + 1 < 2 ^ 64)
    (back : Bool) :
    (t.countSeen.countOwned.countBack back).rollbacks.toNat = t.rollbacks.toNat + back.toNat := by
  have hle : t.countSeen.countOwned.rollbacks.toNat ≤ past.length := h.rollbacks_le
  exact Tally.toNat_rollbacks_countBack back (by omega)

/-- A report is counted whether it comes out or not. -/
theorem reported (h : start.Conserves past t) (hlength : past.length + 1 < 2 ^ 64)
    (howns : start.owns slot = true) (report : Report) {back : Bool}
    (hrecovery : report.outcome.isRecovery = true → back = true)
    (hdelivered : report.outcome = .delivered → back = false) (crashes : Bool) :
    start.Conserves (past ++ [⟨slot, (Handled.reported report).letGo crashes⟩])
      ((t.countSeen.countOwned.countBack back).countOutcome report.outcome) := by
  obtain ⟨id, channel, outcome⟩ := report
  have hcounter := h.counter_succ hlength back outcome
  have hrollbacks := h.rollbacks_succ hlength back
  have howned : ((t.countSeen.countOwned.countBack back).countOutcome outcome).owned.toNat =
      t.owned.toNat + 1 := by
    rw [Tally.owned_countOutcome, Tally.owned_countBack]
    exact h.owned_succ hlength
  have hdelivered' := hcounter .delivered
  have hrequeued' := hcounter .requeued
  have hdeadLettered' := hcounter .deadLettered
  have hdropped' := hcounter .dropped
  have hunhandled' := hcounter .unhandled
  simp only [Tally.counter] at hdelivered' hrequeued' hdeadLettered' hdropped' hunhandled'
  have hbalance := h.balance
  have hrecovered := h.recovered
  have htaken := h.takenBack
  let v : Visit := ⟨slot, (Handled.reported ⟨id, channel, outcome⟩).letGo crashes⟩
  have hwaiting : (past ++ [v]).countP (fun v => v.result = .waiting) =
      past.countP fun v => v.result = .waiting := by
    cases crashes <;> simp [v, Handled.letGo]
  exact {
    seen := by simp [Tally.countSeen, Tally.countOwned, h.seen_succ hlength]
    owned := by rw [howned, h.owned, List.countP_append, List.countP_singleton, if_pos howns]
    reports := by
      intro kind
      rw [hcounter, h.reports, List.countP_append, List.countP_append, List.countP_singleton,
        List.countP_singleton]
      cases crashes <;>
        simp [Handled.letGo, Visit.kind?, Visit.lostKind?, Upshot.report?, Upshot.lost?] <;> omega
    balance := by
      rw [howned, hdelivered', hrequeued', hdeadLettered', hdropped', hunhandled', hwaiting]
      cases outcome <;> simp [Outcome.kind] <;> omega
    recovered := by
      rw [Tally.rollbacks_countOutcome, hrollbacks, hrequeued', hdeadLettered', hdropped']
      cases outcome <;> simp_all [Outcome.kind, Outcome.isRecovery] <;> omega
    takenBack := by
      rw [Tally.rollbacks_countOutcome, hrollbacks, hrequeued', hdeadLettered', hdropped',
        hunhandled']
      cases outcome <;> cases back <;> simp_all [Outcome.kind, Outcome.isRecovery] <;> omega }

/-- What a turn counts is one visit more. -/
theorem visit (h : start.Conserves past t) (hlength : past.length + 1 < 2 ^ 64)
    (hcounts : t.Counts (start.owns slot) result t') (crashes : Bool) :
    start.Conserves (past ++ [⟨slot, result.letGo crashes⟩]) t' := by
  generalize howns : start.owns slot = owns at hcounts
  cases hcounts with
  | foreign => exact h.foreign hlength howns
  | waiting => exact h.waiting hlength howns
  | reported report back hrecovery hdelivered =>
      exact h.reported hlength howns report hrecovery hdelivered crashes

end Conserves

theorem conserves_new (ordinal count : Nat) (queue : String) :
    (new ordinal count queue).Conserves [] (new ordinal count queue).tally where
  seen := rfl
  owned := rfl
  reports := by
    intro kind
    cases kind <;> rfl
  balance := rfl
  recovered := Nat.le_refl 0
  takenBack := Nat.le_refl 0

/-- The event of the rehearsal, for a subscription that does not survive its last owner. -/
def Rehearsal.fragile : Scene Scripted.Cast where
  books := ({} : Books).applyAll (Edit.inFlight delivery.message delivery.subscription)
  outside := { parts := ({} : Table _ _).set delivery.subscription { fragile := true } }

namespace History

variable {start : Handler} {past : List Visit}

/-- Whatever a handler is shown, only its counters change, and they go on to agree. -/
theorem agrees (hstart : start.Conserves [] start.tally) (history : History σ start past h)
    (hlength : past.length < 2 ^ 64) :
    h = { start with tally := h.tally } ∧ start.Conserves past h.tally := by
  induction history with
  | start => exact ⟨rfl, hstart⟩
  | @visit past h e slot sequence last s crashes history ih =>
      rw [List.length_append, List.length_singleton] at hlength
      obtain ⟨hrole, hconserves⟩ := ih (by omega)
      obtain ⟨t, ht, hcounts⟩ := h.counts_handle e slot sequence last s
      have howns : h.owns slot = start.owns slot := by rw [hrole]; rfl
      rw [howns] at hcounts
      rw [ht]
      exact ⟨by rw [hrole], hconserves.visit hlength hcounts crashes⟩

/-- As long as none of its counters can have wrapped, the counters of a handler are the numbers of
the visits that they are named for. Where no report was lost, those are the reports that came
out. -/
theorem counters_agree {ordinal count : Nat} {queue : String}
    (history : History σ (new ordinal count queue) past h) (hlength : past.length < 2 ^ 64) :
    (new ordinal count queue).Conserves past h.tally :=
  (history.agrees (conserves_new ordinal count queue) hlength).2

/-- A handler is shown an empty slot, and then its event five times: the send breaks, is accepted,
crashes, is accepted again but the report is lost, and is given up while it waits. -/
theorem counters_agree_rehearsal : ∃ past h, History Scripted.Cast Rehearsal.handler past h ∧
    past.map Visit.kind? = [none, some .requeued, some .delivered, some .unhandled, none, none] ∧
      past.map Visit.lostKind? = [none, none, none, none, some .delivered, none] ∧
      h.tally =
        { seen := 6, owned := 5, rollbacks := 1, requeued := 1, delivered := 2, unhandled := 1 } ∧
      Rehearsal.handler.Conserves past h.tally :=
  let shown {past h} (slot : Slot) (cue : Scripted.Cue) (crashes : Bool) :=
    @History.visit _ Rehearsal.handler past h (Scripted.environment true) slot 0 true
      (Rehearsal.scene cue) crashes
  let event := Slot.holding Rehearsal.delivery false
  let history := .start
    |> shown .empty {} false
    |> shown event { ending := .fails (.transient "gone") } false
    |> shown event {} false
    |> shown event { ending := .crashes .speechless } false
    |> shown event {} true
    |> shown event { waits := true } false
  ⟨_, _, history, by decide, by decide, by decide, history.counters_agree (by decide)⟩

/-- A delivery is sent and counted as delivered. Its transport does not survive that the handler
lets go of it, so no report of it comes out. -/
theorem exists_unreported :
    let event := Slot.holding Rehearsal.delivery false
    let turn := Rehearsal.handler.handle (Scripted.environment true) event 0 true Rehearsal.fragile
    Scripted.fatal Rehearsal.delivery turn.scene.toSite ∧
      ∃ past h, History Scripted.Cast Rehearsal.handler past h ∧
        past = [⟨event, turn.result.letGo true⟩] ∧ h.tally.delivered = 1 ∧
        past.map Visit.kind? = [none] ∧
        ¬ ∀ kind, (h.tally.counter kind).toNat = past.countP fun v => v.kind? = some kind := by
  intro event turn
  have history : History Scripted.Cast Rehearsal.handler [⟨event, turn.result.letGo true⟩] _ :=
    .visit (Scripted.environment true) event 0 true Rehearsal.fragile true .start
  refine ⟨by decide, _, _, history, rfl, by decide, by decide, fun hall => ?_⟩
  have hdelivered := hall .delivered
  revert hdelivered
  decide

end History

end Handler

end ShardedDelivery
