import ShardedDelivery.Proofs.Receipts

/-! # Shifts

Any number of handlers work on one store, in turns that may overlap while a send waits. What they
report to have been sent, requeued or moved to the dead letters is what has been accepted, in the
order of the reports, and nothing is accepted without a report unless something breaks off. -/

namespace ShardedDelivery

variable {σ : Type}

/-- A slot that was shown to a handler, and what came of it. -/
structure Showing where
  handler : Handler
  slot : Slot
  result : Upshot

namespace Showing

/-- The delivery that the handler reports to have ended so. -/
def ended? (v : Showing) (outcome : Outcome) : Option Delivery :=
  match v.result with
  | .reported report => if report.outcome = outcome then v.slot.delivery else none
  | _ => none

/-- The delivery that is reported to have reached its subscriber. -/
def delivered? (v : Showing) : Option Delivery := v.ended? .delivered

/-- The message that is reported to be requeued. -/
def requeued? (v : Showing) : Option Message := (v.ended? .requeued).map (·.message)

/-- The message that is reported to be a dead letter, with its own destination and the dead letter
queue of the handler. -/
def moved? (v : Showing) : Option (MessageId × String × String) :=
  (v.ended? .deadLettered).map fun d => (d.message.id, d.message.destination, v.handler.queue)

/-- The receipt that the report claims, whether it comes out or is lost. -/
def receipt? (v : Showing) : Option Receipt :=
  v.result.made?.bind fun report => v.slot.delivery.bind (report.outcome.receipt? v.handler.queue)

/-- A report is about the delivery of the slot. -/
def Truthful (v : Showing) : Prop :=
  ∀ report, v.result = .reported report → ∃ d, v.slot.delivery = some d ∧
    report.message = d.message.id ∧ report.channel = d.subscription.channel

section Claims

variable (v : Showing)

theorem receipt?_delivered :
    v.delivered? = if v.result.lost?.isSome then none else v.receipt?.bind Receipt.sent? := by
  rcases v with ⟨h, ⟨_ | d, failed⟩, _ | ⟨m, c, _ | _ | _ | _ | _⟩ | ⟨m, c, outcome⟩ | _⟩ <;> rfl

theorem receipt?_requeued :
    v.requeued? = if v.result.lost?.isSome then none else v.receipt?.bind Receipt.requeued? := by
  rcases v with ⟨h, ⟨_ | d, failed⟩, _ | ⟨m, c, _ | _ | _ | _ | _⟩ | ⟨m, c, outcome⟩ | _⟩ <;> rfl

theorem receipt?_moved :
    v.moved? = if v.result.lost?.isSome then none else v.receipt?.bind Receipt.moved? := by
  rcases v with ⟨h, ⟨_ | d, failed⟩, _ | ⟨m, c, _ | _ | _ | _ | _⟩ | ⟨m, c, outcome⟩ | _⟩ <;> rfl

end Claims

end Showing

/-- A delivery whose send waits, and what is done after that. -/
structure Suspended where
  handler : Handler
  slot : Slot
  delivery : Delivery
  mark : Nat
  rest : Except SendFailure Unit → Plan

/-- How the delivery goes on when its send has been answered. -/
def Suspended.course (x : Suspended) (e : Environment σ) :
    Except Crash (Except SendFailure Unit) → Scene σ → Plan.Ending × Tally × Scene σ
  | .ok reply, s => (x.rest reply).run e x.handler.tally s
  | .error crash, s => (.crashed crash, x.handler.tally, s)

/-- What the handler makes of it. -/
def Suspended.resume (x : Suspended) (e : Environment σ)
    (result : Except Crash (Except SendFailure Unit)) (s : Scene σ) : Turn σ :=
  x.handler.conclude x.delivery (x.course e result s)

/-- What handlers may have been shown since a scene, the turns that still wait for their sends, and
the scene that is left. Handlers and callees may be any, as long as the services keep this store.
Between two turns others may do as they like, but not touch what is in the store. A turn that is
never resumed was given up. To let go of a delivery may crash or not. -/
inductive Shift (store : σ → Store) (start : Scene σ) :
    List Showing → List Suspended → Scene σ → Prop where
  | start : Shift store start [] [] start
  | shown {past air s} (h : Handler) {e : Environment σ} (he : e.Keeps store) (slot : Slot)
      (sequence : Nat) (last crashes : Bool) : Shift store start past air s →
      (h.handle e slot sequence last s).result ≠ .waiting →
      Shift store start
        (past ++ [⟨h, slot, (h.handle e slot sequence last s).result.letGo crashes⟩]) air
        (h.handle e slot sequence last s).scene
  | waits {past air s} (h : Handler) {e : Environment σ} (he : e.Keeps store) (slot : Slot)
      (sequence : Nat) (last : Bool) {d : Delivery} {mark rest t s'} :
      Shift store start past air s → h.claim? slot = some d →
      h.course e d slot.failed sequence last s = (.waiting (.send d) mark rest, t, s') →
      Shift store start past (air ++ [⟨{ h with tally := t }, slot, d, mark, rest⟩]) s'
  | resumed {past s} (before : List Suspended) {after} {x : Suspended} {e : Environment σ}
      (he : e.Keeps store) {result s'} (crashes : Bool) :
      Shift store start past (before ++ x :: after) s →
      s.callLate e (.send x.delivery) x.mark = some (result, s') →
      Shift store start
        (past ++ [⟨x.handler, x.slot, (x.resume e result s').result.letGo crashes⟩])
        (before ++ after) (x.resume e result s').scene
  | meanwhile {past air s} {site : Site σ} : Shift store start past air s →
      (store s.outside).Gains [] (store site.outside) →
      Shift store start past air (s.moveTo site)

namespace Scene

/-- The deliveries whose sends have returned and were accepted. -/
def accepted (s : Scene σ) : List Delivery := s.receipts.filterMap Receipt.sent?

/-- As many calls have returned since an earlier scene as were made. -/
def Settled (s earlier : Scene σ) : Prop :=
  s.returns.length + earlier.calls.length = s.calls.length + earlier.returns.length

instance (s earlier : Scene σ) : Decidable (s.Settled earlier) :=
  inferInstanceAs (Decidable (_ = _))

/-- Between two scenes, in which so many sends were in the air, at least these receipts were given.
If every call has returned, apart from the sends in the air, the store has gained just these. -/
def Earns (store : σ → Store) (s : Scene σ) (before : Nat) (claims : List Receipt) (s' : Scene σ)
    (after : Nat) : Prop :=
  ∃ receipts gained calls returns, s.Adds store receipts gained calls returns s' ∧
    claims.Sublist receipts ∧ returns + after ≤ calls + before ∧
    (returns + after = calls + before → gained = claims)

variable {store : σ → Store} {s s' s'' : Scene σ} {claims later : List Receipt}
  {before between after : Nat}

theorem Adds.earns_nil (h : s.Adds store [] [] 0 0 s') (n : Nat) : s.Earns store n [] s' n :=
  ⟨[], [], 0, 0, h, .slnil, le_rfl, fun _ => rfl⟩

theorem Earns.trans (h : s.Earns store before claims s' between)
    (h' : s'.Earns store between later s'' after) :
    s.Earns store before (claims ++ later) s'' after := by
  obtain ⟨receipts, gained, calls, returns, hadds, hclaims, hle, hgained⟩ := h
  obtain ⟨receipts', gained', calls', returns', hadds', hclaims', hle', hgained'⟩ := h'
  refine ⟨_, _, _, _, hadds.trans hadds', hclaims.append hclaims', by omega, fun heq => ?_⟩
  rw [hgained (by omega), hgained' (by omega)]

theorem Earns.still (h : s.Earns store before claims s' after)
    (hstill : s'.Adds store [] [] 0 0 s'') : s.Earns store before claims s'' after := by
  simpa using h.trans (hstill.earns_nil after)

/-- A run earns what its end claims, together with what was got right before it, for sends that
were answered late. -/
theorem Adds.earns_run {e : Environment σ} (he : e.Keeps store)
    {receipt? : Outcome → Option Receipt} {plan : Plan} {got : List Receipt} {late : Nat}
    (hadds : s.Adds store got got 0 late s') (h : plan.Claims receipt? got) (t : Tally) (n : Nat) :
    s.Earns store (n + late) ((plan.run e t s').1.receipt? receipt?).toList
      (plan.run e t s').2.2 n := by
  obtain ⟨receipts, gained, calls, returns, hrun, hend⟩ := Plan.adds_run he h t s'
  refine ⟨_, _, _, _, hadds.trans hrun, ?_⟩
  cases hc : (plan.run e t s').1 with
  | finished outcome =>
      rw [hc] at hend
      obtain ⟨hclaim, rfl, rfl⟩ := hend
      rw [Plan.Ending.receipt?, hclaim]
      exact ⟨.refl _, by omega, fun _ => rfl⟩
  | _ =>
      rw [hc] at hend
      exact ⟨List.nil_sublist _, by omega, fun heq => by omega⟩

end Scene

namespace Handler

variable {store : σ → Store} (h : Handler) (s : Scene σ)

@[simp] theorem receipts_see (sequence : Nat) (last : Bool) :
    (h.see sequence last s).2.receipts = s.receipts := by
  unfold see
  split <;> simp

theorem adds_see (store : σ → Store) (sequence : Nat) (last : Bool) :
    s.Adds store [] [] 0 0 (h.see sequence last s).2 :=
  .none (by rw [toSite_see]; exact .refl _) (h.receipts_see s sequence last)
    (h.calls_see sequence last s) (h.returns_see sequence last s)

variable (d : Delivery) (course : Plan.Ending × Tally × Scene σ)

@[simp] theorem receipts_conclude : (h.conclude d course).scene.receipts = course.2.2.receipts := by
  rcases course with ⟨_ | _ | _, t, s⟩ <;> simp [conclude, contain]

theorem adds_conclude (store : σ → Store) :
    course.2.2.Adds store [] [] 0 0 (h.conclude d course).scene :=
  .none (by rw [toSite_conclude]; exact .refl _) (h.receipts_conclude d course)
    (h.calls_conclude d course) (h.returns_conclude d course)

variable {slot : Slot} (hslot : slot.delivery = some d)
include hslot

/-- The report of a delivery claims what its end claims. -/
theorem receipt?_conclude (crashes : Bool) :
    (Showing.mk h slot ((h.conclude d course).result.letGo crashes)).receipt? =
      course.1.receipt? (Outcome.receipt? h.queue d) := by
  rcases course with ⟨_ | _ | _, t, s⟩ <;>
    simp [conclude, Showing.receipt?, Plan.Ending.receipt?, hslot, Outcome.receipt?,
      Handled.report?]

theorem truthful_conclude (crashes : Bool) :
    (Showing.mk h slot ((h.conclude d course).result.letGo crashes)).Truthful := by
  intro report hreport
  refine ⟨d, hslot, ?_⟩
  rcases course with ⟨_ | _ | _, t, s⟩ <;> cases crashes <;> cases hreport <;> exact ⟨rfl, rfl⟩

end Handler

namespace Shift

variable {store : σ → Store} {start s : Scene σ} {past : List Showing} {air : List Suspended}

/-- What holds in the course of a shift: the reports are true and have been earned, and the turns
that wait are going to deal with what their sends bring. -/
structure Accounts (store : σ → Store) (start : Scene σ) (past : List Showing)
    (air : List Suspended) (s : Scene σ) : Prop where
  truthful : ∀ v ∈ past, v.Truthful
  pending : ∀ x ∈ air, x.slot.delivery = some x.delivery ∧
    x.rest = Plan.afterSend x.handler.queue x.delivery
  earned : start.Earns store 0 (past.filterMap Showing.receipt?) s air.length

theorem Accounts.report (h : Accounts store start past air s) {v : Showing} (hv : v.Truthful)
    {air' : List Suspended} (hair : ∀ x ∈ air', x ∈ air) {s' : Scene σ}
    (hearned : s.Earns store air.length v.receipt?.toList s' air'.length) :
    Accounts store start (past ++ [v]) air' s' where
  truthful := by
    intro w hw
    rcases List.mem_append.mp hw with hw | hw
    · exact h.truthful w hw
    · obtain rfl := List.mem_singleton.mp hw
      exact hv
  pending := fun x hx => h.pending x (hair x hx)
  earned := by
    have hone : [v].filterMap Showing.receipt? = v.receipt?.toList := by
      cases hr : v.receipt? <;> simp [hr]
    rw [List.filterMap_append, hone]
    exact h.earned.trans hearned

theorem Accounts.shown {h : Handler} {e : Environment σ} (he : e.Keeps store)
    (hs : Accounts store start past air s) (slot : Slot) (sequence : Nat) (last crashes : Bool) :
    Accounts store start
      (past ++ [⟨h, slot, (h.handle e slot sequence last s).result.letGo crashes⟩]) air
      (h.handle e slot sequence last s).scene := by
  cases hclaim : h.claim? slot with
  | none =>
      rw [Handler.handle_of_foreign hclaim]
      have hsee := (h.adds_see s store sequence last).earns_nil air.length
      exact hs.report (fun _ hreport => by cases hreport) (fun _ hx => hx) hsee
  | some d =>
      obtain ⟨hslot, -⟩ := Handler.claim?_eq_some_iff.mp hclaim
      have hrun := (h.adds_see s store sequence last).earns_run he
        (Plan.claims_dispatch h.queue d slot.failed) h.tally.countSeen.countOwned air.length
      rw [Handler.handle_of_claim hclaim]
      refine hs.report (h.truthful_conclude d _ hslot crashes) (fun _ hx => hx) ?_
      rw [h.receipt?_conclude d _ hslot]
      exact hrun.still (h.adds_conclude d _ store)

theorem Accounts.waits {h : Handler} {e : Environment σ} (he : e.Keeps store)
    (hs : Accounts store start past air s) {slot : Slot} {sequence : Nat} {last : Bool}
    {d : Delivery} {mark : Nat} {rest : Except SendFailure Unit → Plan} {t : Tally} {s' : Scene σ}
    (hclaim : h.claim? slot = some d)
    (hcourse : h.course e d slot.failed sequence last s = (.waiting (.send d) mark rest, t, s')) :
    Accounts store start past (air ++ [⟨{ h with tally := t }, slot, d, mark, rest⟩]) s' := by
  obtain ⟨hslot, -⟩ := Handler.claim?_eq_some_iff.mp hclaim
  have hgoes := Plan.goes_dispatch e h.queue d slot.failed h.tally.countSeen.countOwned
    (h.see sequence last s).2
  rw [Handler.course] at hcourse
  rw [hcourse] at hgoes
  obtain ⟨rfl, site, hsend, rfl⟩ := hgoes.of_waiting
  have hcalled := Scene.Adds.called (c := .send d) (he.waits (.send d) _ mark site hsend)
  refine ⟨hs.truthful, ?_, ?_⟩
  · intro x hx
    rcases List.mem_append.mp hx with hx | hx
    · exact hs.pending x hx
    · obtain rfl := List.mem_singleton.mp hx
      exact ⟨hslot, rfl⟩
  · have hadds := hcalled.after (h.adds_see s store sequence last)
    have hwaits : s.Earns store air.length [] _ (air.length + 1) :=
      ⟨[], [], 1, 0, hadds, .slnil, by omega, fun _ => rfl⟩
    simpa using hs.earned.trans hwaits

theorem Accounts.resumed {before after : List Suspended} {x : Suspended} {e : Environment σ}
    (he : e.Keeps store) (hs : Accounts store start past (before ++ x :: after) s)
    {result : Except Crash (Except SendFailure Unit)} {s' : Scene σ}
    (hlate : s.callLate e (.send x.delivery) x.mark = some (result, s')) (crashes : Bool) :
    Accounts store start
      (past ++ [⟨x.handler, x.slot, (x.resume e result s').result.letGo crashes⟩])
      (before ++ after) (x.resume e result s').scene := by
  obtain ⟨hslot, hrest⟩ := hs.pending x (by simp)
  have hair : ∀ y ∈ before ++ after, y ∈ before ++ x :: after := by
    intro y hy
    rcases List.mem_append.mp hy with hy | hy <;> simp [hy]
  have hlength : (before ++ x :: after).length = (before ++ after).length + 1 := by
    simp [Nat.add_assoc]
  simp only [Scene.callLate, Option.map_eq_some_iff, Prod.mk.injEq] at hlate
  obtain ⟨⟨result', site⟩, hanswer, rfl, rfl⟩ := hlate
  have hbanks := he.late (.send x.delivery) x.mark s.toSite result' site hanswer
  refine hs.report (x.handler.truthful_conclude x.delivery _ hslot crashes) hair ?_
  rw [hlength]
  refine Scene.Earns.still ?_ (x.handler.adds_conclude x.delivery _ store)
  rw [x.handler.receipt?_conclude x.delivery _ hslot]
  cases result' with
  | error crash =>
      obtain ⟨gained, hgained⟩ := hbanks
      have hadds : s.Adds store [] gained 0 0 (s.moveTo site) :=
        ⟨by simp, hgained, List.nil_sublist _, rfl, rfl⟩
      exact ⟨[], gained, 0, 0, hadds, .slnil, by omega, fun _ => by omega⟩
  | ok reply =>
      have hadds := Scene.Adds.returned_late hbanks
      have hclaims := Plan.claims_afterSend x.handler.queue x.delivery reply
      rw [Suspended.course, hrest]
      exact hadds.earns_run he hclaims x.handler.tally _

theorem accounts (h : Shift store start past air s) : Accounts store start past air s := by
  induction h with
  | start =>
      have hnone : start.Adds store [] [] 0 0 start := .none (.refl _) rfl rfl rfl
      exact ⟨by simp, by simp, hnone.earns_nil 0⟩
  | shown h he slot sequence last crashes _ _ ih => exact ih.shown he slot sequence last crashes
  | waits h he slot sequence last _ hclaim hcourse ih => exact ih.waits he hclaim hcourse
  | resumed before he crashes _ hlate ih => exact ih.resumed he hlate crashes
  | meanwhile _ hsite ih =>
      exact ⟨ih.truthful, ih.pending, ih.earned.still (.none hsite rfl rfl rfl)⟩

/-- What some reports tell is part of what all of them tell. -/
theorem filterMap_unless_sublist {α β : Type} (p : α → Bool) (f : α → Option β) (l : List α) :
    (l.filterMap fun a => if p a then none else f a).Sublist (l.filterMap f) := by
  induction l with
  | nil => exact .slnil
  | cons a l ih =>
      rw [List.filterMap_cons, List.filterMap_cons]
      cases p a <;> cases f a <;> simp [ih]

section Readings

variable {α : Type} {f : Receipt → Option α} {g : Showing → Option α} {past : List Showing}

/-- What the reports that came out say is part of what all of them say. A report that is lost says
nothing any more. -/
theorem filterMap_sublist
    (hfg : ∀ v, g v = if v.result.lost?.isSome then none else v.receipt?.bind f) :
    (past.filterMap g).Sublist ((past.filterMap Showing.receipt?).filterMap f) := by
  rw [List.filterMap_filterMap, funext hfg]
  exact filterMap_unless_sublist _ _ past

/-- It is all of it when no report is lost. -/
theorem filterMap_eq (hfg : ∀ v, g v = if v.result.lost?.isSome then none else v.receipt?.bind f)
    (hlost : ∀ v ∈ past, v.result.lost? = none) :
    past.filterMap g = (past.filterMap Showing.receipt?).filterMap f := by
  rw [List.filterMap_filterMap]
  exact List.filterMap_congr fun v hv => by simp [hfg, hlost v hv]

end Readings

/-- Every report is about the delivery that its handler was shown. What the reports say was
requeued, moved to the dead letters or sent has been, in their order, whatever crashes and however
many turns were given up; and if every call has returned and no report was lost, nothing else
has. -/
theorem reports_match (h : Shift store start past air s) :
    (∀ v ∈ past, v.Truthful) ∧
      ∃ requeued letters sent,
        (store s.outside).requeued = (store start.outside).requeued ++ requeued ∧
        (store s.outside).deadLetters = (store start.outside).deadLetters ++ letters ∧
        s.accepted = start.accepted ++ sent ∧
        (past.filterMap Showing.requeued?).Sublist requeued ∧
        (past.filterMap Showing.moved?).Sublist (letters.map DeadLetter.entry) ∧
        (past.filterMap Showing.delivered?).Sublist sent ∧
        (s.Settled start → (∀ v ∈ past, v.result.lost? = none) →
          requeued = past.filterMap Showing.requeued? ∧
          letters.map DeadLetter.entry = past.filterMap Showing.moved? ∧
          sent = past.filterMap Showing.delivered?) := by
  have hs := h.accounts
  obtain ⟨receipts, gained, calls, returns, hadds, hclaims, hle, hgained⟩ := hs.earned
  obtain ⟨letters, hletters, hentries⟩ := hadds.stored.deadLetters
  have hpart := hclaims.trans hadds.backed
  refine ⟨hs.truthful, _, letters, receipts.filterMap Receipt.sent?, hadds.stored.requeued,
    hletters, ?_, ?_, ?_, ?_, ?_⟩
  · rw [Scene.accepted, hadds.noted, List.filterMap_append]
    rfl
  · exact (filterMap_sublist Showing.receipt?_requeued).trans (hpart.filterMap _)
  · rw [hentries]
    exact (filterMap_sublist Showing.receipt?_moved).trans (hpart.filterMap _)
  · exact (filterMap_sublist Showing.receipt?_delivered).trans (hclaims.filterMap _)
  · intro hsettled hlost
    have hequal : returns + air.length = calls + 0 := by
      have hasked := hadds.asked
      have hreplied := hadds.replied
      unfold Scene.Settled at hsettled
      omega
    obtain rfl := hgained hequal
    obtain rfl : receipts = _ := hadds.backed.antisymm hclaims
    rw [filterMap_eq Showing.receipt?_requeued hlost, filterMap_eq Showing.receipt?_moved hlost,
      filterMap_eq Showing.receipt?_delivered hlost]
    exact ⟨rfl, hentries, rfl⟩

/-! ## A rehearsal

Two handlers, each with a dead letter queue and a channel of its own. -/

namespace Rehearsal

def morning : Handler := .new 0 2 "dead"

def evening : Handler := .new 1 2 "grave"

def orders : Subscription := ⟨0, ⟨0, 0⟩, true⟩

def bills : Subscription := ⟨1, ⟨0, 1⟩, true⟩

def order (n : UInt64) : Delivery := ⟨orders, ⟨n.toNat, ⟨n⟩, "orders", .queue⟩, {}⟩

def bill : Delivery := ⟨bills, ⟨9, ⟨90⟩, "bills", .queue⟩, {}⟩

/-- The sends of orders break, are refused twice and succeed; the send of a bill waits. -/
def opening : Scene Scripted.Cast where
  books := {}
  outside :=
    let refusal := Scripted.Ending.fails (.ruleViolation "too large")
    let script : List Scripted.Cue :=
      [{ ending := .fails (.transient "gone") }, { ending := refusal }, { ending := refusal }, {}]
    { parts := (({} : Table _ _).set orders { cues := script }).set bills
        { cues := [{ waits := true, ending := refusal }] } }

/-- Meanwhile, the bill gets its permit. -/
def permit (s : Scene Scripted.Cast) : Site Scripted.Cast :=
  { s with outside := s.outside.permit bills 1 }

/-- Meanwhile, the store comes to refuse moves. -/
def refuse (s : Scene Scripted.Cast) : Site Scripted.Cast :=
  { s with outside := { s.outside with store := s.outside.store.setRefusing true } }

theorem gains_permit (s : Scene Scripted.Cast) :
    s.outside.store.Gains [] (permit s).outside.store := .refl _

theorem gains_refuse (s : Scene Scripted.Cast) :
    s.outside.store.Gains [] (refuse s).outside.store :=
  ⟨(List.append_nil _).symm, [], (List.append_nil _).symm, rfl⟩

end Rehearsal

open Shift.Rehearsal in
/-- While a bill waits for its permit, one order is requeued and another becomes a dead letter. The
bill becomes one as well, the move of a third order is refused, and a fourth is sent. So is a fifth,
but its report is lost. -/
theorem reports_match_rehearsal :
    ∃ past s past' s', Shift Scripted.Cast.store opening past [] s ∧ s.Settled opening ∧
      past.filterMap Showing.requeued? = [(order 1).message] ∧
      past.filterMap Showing.moved? = [(⟨2⟩, "orders", "dead"), (⟨90⟩, "bills", "grave")] ∧
      past.filterMap Showing.delivered? = [order 4] ∧
      s.outside.store.requeued = past.filterMap Showing.requeued? ∧
      s.outside.store.deadLetters.map DeadLetter.entry = past.filterMap Showing.moved? ∧
      s.accepted = past.filterMap Showing.delivered? ∧
      Shift Scripted.Cast.store opening past' [] s' ∧ s'.accepted = [order 4, order 5] ∧
      past'.filterMap Showing.delivered? = [order 4] ∧
      (past'.filterMap Showing.delivered?).Sublist s'.accepted := by
  have he : (Scripted.environment true).Keeps Scripted.Cast.store := Scripted.keeps true
  have shift : Shift Scripted.Cast.store opening [] [] opening := .start
  have shift := shift.shown morning he (.holding bill false) 0 true false (by decide)
  have shift := shift.shown morning he (.holding (order 1) false) 1 true false (by decide)
  have shift := shift.waits evening he (.holding bill false) 0 true rfl rfl
  have shift := shift.shown morning he (.holding (order 2) false) 2 true false (by decide)
  have shift := shift.meanwhile (gains_permit _)
  have shift := shift.resumed [] he false rfl
  have shift := shift.meanwhile (gains_refuse _)
  have shift := shift.shown morning he (.holding (order 3) false) 3 true false (by decide)
  have shift := shift.shown morning he (.holding (order 4) false) 4 true false (by decide)
  have later := shift.shown morning he (.holding (order 5) false) 5 true true (by decide)
  obtain ⟨-, requeued, letters, sent, hrequeued, hletters, haccepted, -, -, -, hall⟩ :=
    shift.reports_match
  obtain ⟨rfl, hmoved, rfl⟩ := hall (by decide) (by decide)
  obtain ⟨-, -, -, sent', -, -, haccepted', -, -, hdelivered, -⟩ := later.reports_match
  obtain rfl := haccepted'
  refine ⟨_, _, _, _, shift, by decide, by decide, by decide, by decide, hrequeued, ?_, haccepted,
    later, by decide, by decide, hdelivered⟩
  rw [hletters, ← hmoved]
  rfl

end Shift

end ShardedDelivery
