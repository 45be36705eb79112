import Mathlib.Algebra.BigOperators.Finprod
import ShardedDelivery.Proofs.Crew
import ShardedDelivery.Proofs.Rollback

/-! # The ledger of failures

The failures counted on messages and channels, the rollbacks counted by the handlers and the
recoveries in the reports are kept in three places. They agree after every turn of a crew, as long
as nobody else counts failures and no count wraps; the reports do unless something crashes. -/

namespace ShardedDelivery

variable {σ : Type}

namespace Note

/-- The message and the channel that a failure is counted on. -/
def failure? : Note → Option (Message × ChannelId)
  | edited (.countFailure m ch) => some (m, ch)
  | _ => none

theorem count_failure (told : List Note) (m : Message) (ch : ChannelId) :
    told.count (.edited (.countFailure m ch)) = (told.filterMap failure?).count (m, ch) := by
  rw [List.count_filterMap, List.count_eq_countP]
  refine List.countP_congr fun x _ => ?_
  rcases x with _ | change | _ | _ | _ | _
  on_goal 2 => cases change
  all_goals simp [failure?]

end Note

/-- The message and the channel of a delivery that is reported to be recovered. -/
def Showing.recovered? (v : Showing) : Option (Message × ChannelId) :=
  v.result.report?.bind fun report =>
    if report.outcome.isRecovery then
      v.slot.delivery.map fun d => (d.message, d.subscription.channel)
    else none

/-! ## Turns -/

namespace Plan

/-- How many calls have not returned at the end. -/
def Ending.unanswered : Ending → Nat
  | finished _ => 0
  | crashed _ | waiting .. => 1

/-- Every call has returned, but for the one that broke off or waits. -/
theorem Traces.length_asked {plan : Plan} {told : List Note} {ending : Ending}
    (h : plan.Traces told ending) :
    (told.filterMap Note.asked?).length =
      (told.filterMap Note.returned?).length + ending.unanswered := by
  induction h with
  | finish | crash | waits => rfl
  | log _ ih | edit _ ih | countRollback _ ih | check _ ih => exact ih
  | call reply _ ih =>
      simp only [List.filterMap_cons, Note.asked?, Note.returned?, List.length_cons, ih]
      omega

section Recoveries

variable {queue : String} {d : Delivery} {told : List Note} {ending : Ending}

/-- A delivery counts one failure with every rollback, and one rollback at most. -/
theorem Delivering.failures (h : Delivering queue d told ending) :
    told.filterMap Note.failure? =
        List.replicate (told.count .countedRollback) (d.message, d.subscription.channel) ∧
      told.count .countedRollback ≤ 1 := by
  have hfailures : told.filterMap Note.failure? =
      (told.filter (!·.inJournal)).filterMap Note.failure? := by
    rw [List.filterMap_filter]
    exact List.filterMap_congr fun x _ => by cases x <;> rfl
  have hcount : told.count .countedRollback =
      (told.filter (!·.inJournal)).count .countedRollback := by
    rw [List.count_filter rfl]
  rw [hfailures, hcount]
  rcases h.unrecorded with hnone | hback
  · rw [hnone]
    simp
  · rw [hback]
    exact ⟨rfl, le_rfl⟩

theorem Mending.isRecovery {outcome : Outcome} (h : Mending queue d told (.finished outcome)) :
    outcome.isRecovery := by
  cases h with
  | routed h =>
      cases h with
      | moved h => cases h; rfl
      | _ => rfl
  | recovered h => cases h <;> rfl
  | discarded => rfl

/-- Nothing is taken back by notes that are all in the journal. -/
theorem count_rollback_eq_zero (h : ∀ x ∈ told, x.inJournal) : told.count .countedRollback = 0 :=
  List.count_eq_zero.mpr fun hx => by cases h _ hx

/-- A delivery that has come to an outcome was taken back if it was recovered. -/
theorem Delivering.count_rollback {outcome : Outcome}
    (h : Delivering queue d told (.finished outcome)) :
    told.count .countedRollback = if outcome.isRecovery then 1 else 0 := by
  cases h with
  | untried h =>
      rw [if_pos h.isRecovery, List.count_append, count_rollback_eq_zero h.inJournal]
      rfl
  | accepted h =>
      cases h
      rfl
  | unclassified reason => rfl
  | @refused line _ _ _ h =>
      rw [if_pos h.isRecovery, List.count_cons, List.count_cons, List.count_cons,
        List.count_append, count_rollback_eq_zero h.inJournal]
      rfl

end Recoveries

end Plan

namespace Showing.Undergoes

variable {v : Showing} {told : List Note}

theorem failures (h : v.Undergoes told) :
    (told.filterMap Note.failure?).length = told.count .countedRollback ∧
      told.count .countedRollback ≤ 1 := by
  cases h with
  | foreign => exact ⟨rfl, Nat.zero_le 1⟩
  | @reported d told ending outcome _ htraces =>
      have hnotes : (ending.notes d).count .countedRollback = 0 ∧
          (ending.notes d).filterMap Note.failure? = [] := by
        cases ending <;> exact ⟨rfl, rfl⟩
      obtain ⟨hfailures, hone⟩ := htraces.delivering.failures
      rw [List.filterMap_append, List.count_append, hnotes.1, hnotes.2, hfailures]
      exact ⟨by simp, hone⟩

/-- No turn that is over was answered more often than it asked. If it was answered as often and its
report was not lost, it took back what is reported to be recovered. -/
theorem settled (h : v.Undergoes told) :
    (told.filterMap Note.returned?).length ≤ (told.filterMap Note.asked?).length ∧
      ((told.filterMap Note.asked?).length = (told.filterMap Note.returned?).length →
        v.result.lost? = none → told.filterMap Note.failure? = v.recovered?.toList) := by
  cases h with
  | foreign hresult => exact ⟨le_rfl, fun _ _ => by simp [recovered?, hresult, Upshot.report?]⟩
  | @reported d told ending outcome hslot htraces houtcome hmade =>
      have hnotes : (ending.notes d).filterMap Note.asked? = [] ∧
          (ending.notes d).filterMap Note.returned? = [] ∧
          (ending.notes d).filterMap Note.failure? = [] := by
        cases ending <;> exact ⟨rfl, rfl, rfl⟩
      have hasked := htraces.length_asked
      simp only [List.filterMap_append, hnotes.1, hnotes.2.1, hnotes.2.2, List.append_nil]
      refine ⟨by omega, fun hequal hlost => ?_⟩
      obtain ⟨hfailures, -⟩ := htraces.delivering.failures
      rw [Upshot.made?_of_not_lost hlost] at hmade
      cases ending with
      | finished outcome' =>
          obtain rfl : outcome' = outcome := by simpa [Plan.Ending.outcome?] using houtcome
          rw [hfailures, htraces.delivering.count_rollback]
          cases hrecovery : outcome'.isRecovery <;> simp [recovered?, hmade, hslot, hrecovery]
      | _ =>
          simp only [Plan.Ending.unanswered] at hasked
          omega

end Showing.Undergoes

/-! ## Runs -/

namespace Crew

/-- Nobody but the handlers counts failures, and no count of failures wraps. -/
def Counting : Crew σ → Crew σ → Prop :=
  Relation.ReflTransGen fun c c' => Step .keepFailures c c' ∧
    ∀ m ch, c.scene.books.failures m ch ≤ c'.scene.books.failures m ch

/-- A counter that does not fall when it goes up by one has not wrapped. -/
theorem toNat_add_ofNat {a : UInt32} {n : Nat} (hn : n ≤ 1) (h : a ≤ a + UInt32.ofNat n) :
    (a + UInt32.ofNat n).toNat = a.toNat + n := by
  rw [UInt32.le_iff_toNat_le] at h
  have ha := a.toNat_lt
  have hsum : (a + UInt32.ofNat n).toNat = (a.toNat + n) % 2 ^ 32 := by
    rw [UInt32.toNat_add, UInt32.toNat_ofNat', Nat.add_mod_mod]
  omega

section Failures

variable {closed : List (Showing × List Note)} (hundergone : ∀ v ∈ closed, v.1.Undergoes v.2)
include hundergone

/-- As many failures are counted as rollbacks. -/
theorem length_failures : ((closed.flatMap Prod.snd).filterMap Note.failure?).length =
    (closed.flatMap Prod.snd).count .countedRollback := by
  refine notes_closed (p := fun told => (told.filterMap Note.failure?).length =
    told.count .countedRollback) rfl (fun {told more} h h' => ?_)
    fun v hv => (hundergone v hv).failures.1
  rw [List.filterMap_append, List.length_append, List.count_append, h, h']

theorem count_rollback_le :
    (closed.flatMap Prod.snd).count .countedRollback ≤ closed.length := by
  induction closed with
  | nil => rfl
  | cons v closed ih =>
      obtain ⟨-, hfirst⟩ := (hundergone v List.mem_cons_self).failures
      have hothers := ih fun w hw => hundergone w (List.mem_cons_of_mem _ hw)
      rw [List.flatMap_cons, List.count_append, List.length_cons]
      omega

theorem count_failure_le (m : Message) (ch : ChannelId) :
    (closed.flatMap Prod.snd).count (.edited (.countFailure m ch)) ≤ closed.length := by
  have hle : ((closed.flatMap Prod.snd).filterMap Note.failure?).count (m, ch) ≤ _ :=
    List.count_le_length
  rw [← Note.count_failure, length_failures hundergone] at hle
  exact hle.trans (count_rollback_le hundergone)

/-- If as many calls have returned as were made and no report was lost, the failures that were
counted are those of the deliveries reported to be recovered. -/
theorem failures_eq_recovered :
    ((closed.flatMap Prod.snd).filterMap Note.returned?).length ≤
        ((closed.flatMap Prod.snd).filterMap Note.asked?).length ∧
      (((closed.flatMap Prod.snd).filterMap Note.asked?).length =
          ((closed.flatMap Prod.snd).filterMap Note.returned?).length →
        (∀ v ∈ closed.map Prod.fst, v.result.lost? = none) →
        (closed.flatMap Prod.snd).filterMap Note.failure? =
          (closed.map Prod.fst).filterMap Showing.recovered?) := by
  induction closed with
  | nil => exact ⟨le_rfl, fun _ _ => rfl⟩
  | cons v closed ih =>
      obtain ⟨hle, hfirst⟩ := (hundergone v List.mem_cons_self).settled
      obtain ⟨hles, hothers⟩ := ih fun w hw => hundergone w (List.mem_cons_of_mem _ hw)
      simp only [List.flatMap_cons, List.filterMap_append, List.length_append, List.map_cons]
      refine ⟨by omega, fun hequal hlost => ?_⟩
      obtain ⟨hlost, hlosts⟩ := List.forall_mem_cons.mp hlost
      rw [hfirst (by omega) hlost, hothers (by omega) hlosts, List.filterMap_cons]
      cases v.1.recovered? <;> rfl

end Failures

/-- What is counted in the books is what the turns that are over have counted. -/
theorem Counting.failures {posts : List (Nat × Nat × String)} {site : Site σ} {c : Crew σ}
    (h : Counting (opening posts site) c) :
    c.Pending ∧ ∃ closed, Stretch .keepFailures (opening posts site) c closed ∧
      ∀ m ch, (c.scene.books.failures m ch).toNat = (site.books.failures m ch).toNat +
        ((closed.flatMap Prod.snd).filterMap Note.failure?).count (m, ch) := by
  induction h with
  | refl => exact ⟨by simp [Pending], [], .refl _ _, fun m ch => rfl⟩
  | tail _ hstep ih =>
      obtain ⟨hstep, hrises⟩ := hstep
      obtain ⟨hpending, closed, hstretch, hfailures⟩ := ih
      obtain ⟨hpending', later, hlater, hnext⟩ := hstep.stretch hpending
      refine ⟨hpending', _, hstretch.trans hnext, fun m ch => ?_⟩
      have hrise := hrises m ch
      have hfew := (count_failure_le hnext.undergone m ch).trans hlater
      rw [hnext.failures rfl] at hrise ⊢
      rw [toNat_add_ofNat hfew hrise, hfailures, List.flatMap_append, List.filterMap_append,
        List.count_append, Note.count_failure, Nat.add_assoc]

/-- Rollbacks, failures and reported recoveries agree. The failures of all messages on all channels
are as many as the rollbacks of all handlers, as far as 64 bits can tell. If every call has
returned, apart from the sends in the air, and no report was lost, a message has failed on a channel
as often as this was reported. -/
theorem failures_balance {posts : List (Nat × Nat × String)} {site : Site σ} {c : Crew σ}
    (hzero : ∀ m ch, site.books.failures m ch = 0) (hrun : Counting (opening posts site) c) :
    (Function.support fun p : Message × ChannelId => c.scene.books.failures p.1 p.2).Finite ∧
      c.tally.rollbacks = UInt64.ofNat
        (∑ᶠ p : Message × ChannelId, (c.scene.books.failures p.1 p.2).toNat) ∧
      (c.scene.calls.length = c.scene.returns.length + c.air.length → c.lost = [] →
        ∀ m ch, (c.scene.books.failures m ch).toNat =
          (c.past.filterMap Showing.recovered?).count (m, ch)) := by
  obtain ⟨-, closed, hstretch, hfailures⟩ := hrun.failures
  have hcount (m : Message) (ch : ChannelId) : (c.scene.books.failures m ch).toNat =
      ((closed.flatMap Prod.snd).filterMap Note.failure?).count (m, ch) := by
    rw [hfailures, hzero]
    exact Nat.zero_add _
  generalize hbacks : (closed.flatMap Prod.snd).filterMap Note.failure? = backs at hcount
  have hsupport : (Function.support fun p : Message × ChannelId =>
      (c.scene.books.failures p.1 p.2).toNat) ⊆ backs.toFinset := by
    intro p hp
    simpa [hcount, List.count_eq_zero] using hp
  refine ⟨backs.toFinset.finite_toSet.subset fun p hp => hsupport ?_, ?_,
    fun hequal hlost m ch => ?_⟩
  · simpa [← UInt32.toNat_inj] using hp
  · have hsum : ∑ p ∈ backs.toFinset, (c.scene.books.failures p.1 p.2).toNat = backs.length := by
      rw [← List.sum_toFinset_count_eq_length backs]
      refine Finset.sum_congr rfl fun p _ => (hcount p.1 p.2).trans ?_
      exact List.countP_congr fun x _ => by simp
    rw [finsum_eq_sum_of_support_subset _ hsupport, hsum, ← hbacks,
      length_failures hstretch.undergone, hstretch.rollbacks, tally_opening]
    exact UInt64.zero_add _
  · have hasked := hstretch.length_calls
    have hpast : c.past = closed.map Prod.fst := by simpa using hstretch.past
    rw [hequal, hstretch.returns] at hasked
    rw [lost, List.filterMap_eq_nil_iff, hpast] at hlost
    rw [hcount, ← hbacks, (failures_eq_recovered hstretch.undergone).2 (by omega) hlost, hpast]

/-- Before more turns are over than can be counted, no count wraps. -/
theorem Run.counting {posts : List (Nat × Nat × String)} {site : Site σ} {c : Crew σ}
    (hrun : Run .keepFailures (opening posts site) c)
    (hzero : ∀ m ch, site.books.failures m ch = 0) (hshort : c.past.length < 2 ^ 32) :
    Counting (opening posts site) c := by
  induction hrun with
  | refl => exact .refl
  | tail hrun hstep ih =>
      obtain ⟨hpending, -⟩ := Run.stretch hrun (by simp [Pending])
      obtain ⟨-, later, -, hnext⟩ := hstep.stretch hpending
      have hlength := congrArg List.length hnext.past
      rw [List.length_append, List.length_map] at hlength
      have hcounting := ih (by omega)
      obtain ⟨-, closed, hstretch, hfailures⟩ := hcounting.failures
      refine hcounting.tail ⟨hstep, fun m ch => ?_⟩
      have hbefore := hfailures m ch
      have hclosed := congrArg List.length hstretch.past
      rw [← Note.count_failure, hzero] at hbefore
      simp only [past_opening, List.nil_append, List.length_map,
        UInt32.toNat_zero] at hclosed hbefore
      have hle := count_failure_le hstretch.undergone m ch
      have hfew := count_failure_le hnext.undergone m ch
      rw [hnext.failures rfl, UInt32.le_iff_toNat_le, UInt32.toNat_add, UInt32.toNat_ofNat']
      omega

end Crew

namespace Scripted

theorem keepsFailures (listening : Bool) : (environment listening).KeepsFailures := by
  refine ⟨fun c s m ch => (discreet listening c s).failures m ch, ?_⟩
  intro c mark s result s' h
  cases c with
  | send d => exact (sameFlight_resume h).failures
  | _ => cases h

end Scripted

namespace Crew

open Shift.Rehearsal in
/-- While a bill waits for its permit, one order is requeued, and another becomes a dead letter; so
does the bill then. A second bill is given up while it waits. -/
theorem failures_balance_rehearsal :
    ∃ c, Counting Rehearsal.start c ∧
      c.air.length = 1 ∧ c.tally.rollbacks = 3 ∧
      c.tally.rollbacks = UInt64.ofNat
        (∑ᶠ p : Message × ChannelId, (c.scene.books.failures p.1 p.2).toNat) ∧
      c.past.filterMap Showing.recovered? = [((order 1).message, orders.channel),
        ((order 2).message, orders.channel), (bill.message, bills.channel)] ∧
      ∀ m ch, (c.scene.books.failures m ch).toNat =
        (c.past.filterMap Showing.recovered?).count (m, ch) := by
  have he : (Scripted.environment true).KeepsFailures := Scripted.keepsFailures true
  have run : Run .keepFailures Rehearsal.start _ := .refl
  have run := run.tail (.waits 1 rfl he (.holding bill false) 0 true rfl rfl)
  have run := run.tail (.shown 0 rfl he (.holding (order 1) false) 0 true false (by decide))
  have run := run.tail (.shown 0 rfl he (.holding (order 2) false) 1 true false (by decide))
  have run := run.tail (.meanwhile (permit _) fun _ _ => rfl)
  have run := run.tail (.resumed [] rfl rfl he false rfl)
  have run := run.tail (.waits 1 rfl he (.holding bill false) 1 true rfl rfl)
  have counting := Run.counting run (fun _ _ => rfl) (by decide)
  obtain ⟨-, hsum, hcount⟩ := failures_balance (fun _ _ => rfl) counting
  exact ⟨_, counting, by decide, by decide, hsum, by decide, hcount (by decide) (by decide)⟩

end Crew

end ShardedDelivery
