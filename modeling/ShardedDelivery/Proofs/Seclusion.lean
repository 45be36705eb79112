import ShardedDelivery.Proofs.Plan.Notes
import ShardedDelivery.Proofs.Plan.Patience
import ShardedDelivery.Proofs.Pool.Move
import ShardedDelivery.Proofs.Scripted
import ShardedDelivery.Proofs.Turn

/-! # Seclusion

Every transport keeps a part of the outside to itself, and callees act on nothing but what can be
seen of the delivery that they are called for. Then a delivery that shares neither its message nor
its transport with others is dealt with as if there were no others, whatever becomes of them. -/

namespace ShardedDelivery

variable {σ ρ τ μ : Type}

/-- A call that concerns this delivery. -/
def Call.Concerns (d : Delivery) : Call → Prop
  | .send d' => d' = d
  | .requeue m | .moveToDeadLetters m _ _ | .trace _ m => m = d.message
  | .count _ => True

/-- The transport of every subscription, the part of the outside that each transport keeps, and how
the services, the tracer and the sink are disposed. -/
structure Wiring (σ ρ τ μ : Type) where
  transport : Subscription → ρ
  part : σ → ρ → τ
  mood : σ → μ

/-- What can be seen of a delivery: how the services are disposed, what its transport keeps, and the
records of its message and its subscription. -/
structure Outlook (τ μ : Type) where
  mood : μ
  part : τ
  records : MessageRecord × SubscriptionRecord

namespace Wiring

variable (w : Wiring σ ρ τ μ)

def outlook (d : Delivery) (s : Site σ) : Outlook τ μ where
  mood := w.mood s.outside
  part := w.part s.outside (w.transport d.subscription)
  records := s.books.records d

/-- Nothing has changed but what can be seen of a delivery, and the services are disposed as
before. -/
structure Beside (d : Delivery) (s s' : Site σ) : Prop where
  mood : w.mood s'.outside = w.mood s.outside
  parts : ∀ p, p ≠ w.transport d.subscription → w.part s'.outside p = w.part s.outside p
  messages : ∀ m, m ≠ d.message → s'.books.messages.get m = s.books.messages.get m
  subscriptions : ∀ x, x ≠ d.subscription →
    s'.books.subscriptions.get x = s.books.subscriptions.get x

/-- An act that comes out as what can be seen of a delivery has it, and leaves everything else as it
is. -/
structure Confined {α : Type} (d : Delivery) (act : Site σ → α × Site σ) : Prop where
  alike : ∀ {s u}, w.outlook d s = w.outlook d u →
    (act s).1 = (act u).1 ∧ w.outlook d (act s).2 = w.outlook d (act u).2
  beside : ∀ s, w.Beside d s (act s).2

/-- An act that may not be possible yet, and is confined likewise. -/
structure ConfinedIf {α : Type} (d : Delivery) (act : Site σ → Option (α × Site σ)) : Prop where
  alike : ∀ {s u}, w.outlook d s = w.outlook d u →
    act s = none ∧ act u = none ∨
      ∃ a s' u', act s = some (a, s') ∧ act u = some (a, u') ∧ w.outlook d s' = w.outlook d u'
  beside : ∀ {s a s'}, act s = some (a, s') → w.Beside d s s'

/-- Every call is confined to the delivery that it concerns. No earlier call matters to the
services, as they do not change how they are disposed. -/
def Secludes (e : Environment σ) : Prop :=
  ∀ {d c}, Call.Concerns d c → w.Confined d (e.answer c)

/-- Two deliveries of different messages, by different transports. -/
structure Apart (d d' : Delivery) : Prop where
  message : d.message ≠ d'.message
  transport : w.transport d.subscription ≠ w.transport d'.subscription

variable {w} {d d' : Delivery} {s s' s'' : Site σ}

theorem Beside.refl (d : Delivery) (s : Site σ) : w.Beside d s s where
  mood := rfl
  parts _ _ := rfl
  messages _ _ := rfl
  subscriptions _ _ := rfl

theorem Beside.trans (h : w.Beside d s s') (h' : w.Beside d s' s'') : w.Beside d s s'' where
  mood := h'.mood.trans h.mood
  parts p hp := (h'.parts p hp).trans (h.parts p hp)
  messages m hm := (h'.messages m hm).trans (h.messages m hm)
  subscriptions x hx := (h'.subscriptions x hx).trans (h.subscriptions x hx)

/-- What is done for one delivery cannot be seen of another. -/
theorem Beside.outlook_eq (h : w.Beside d' s s') (hapart : w.Apart d d') :
    w.outlook d s' = w.outlook d s := by
  have hsubscription : d.subscription ≠ d'.subscription :=
    fun heq => hapart.transport (congrArg w.transport heq)
  simp only [outlook, Books.records, h.mood, h.parts _ hapart.transport,
    h.messages _ hapart.message, h.subscriptions _ hsubscription]

/-- Callees that are waited for seclude deliveries too, if all that happens until the send is tried
again is confined to the delivery that waits. -/
theorem Secludes.patient {e : Environment σ}
    {meanwhile : Delivery → Nat → Site σ → Option (Site σ)} (he : w.Secludes e)
    (hlate : ∀ d mark, w.ConfinedIf d fun s => (meanwhile d mark s).bind (e.resume d mark)) :
    w.Secludes (e.patient meanwhile) := by
  intro d c hc
  cases c with
  | send d' =>
      obtain rfl : d' = d := hc
      have hsend : w.Confined d' (e.send d') := he (c := .send d') rfl
      refine ⟨fun {s u} hs => ?_, fun s => ?_⟩
      · obtain ⟨hanswer, hsites⟩ := hsend.alike hs
        simp only [Environment.answer, Environment.patient]
        rcases ha : e.send d' s with ⟨result | mark, s'⟩
        all_goals
          rcases hb : e.send d' u with ⟨attempt, u'⟩
          rw [ha, hb] at hanswer hsites
          obtain rfl : _ = attempt := hanswer
        · exact ⟨rfl, hsites⟩
        · rcases (hlate d' mark).alike hsites with ⟨hs', hu'⟩ | ⟨result, s'', u'', hs', hu', hlater⟩
          all_goals simp only [hs', hu']
          · exact ⟨trivial, hsites⟩
          · exact ⟨trivial, hlater⟩
      · have hbeside := hsend.beside s
        simp only [Environment.answer, Environment.patient]
        rcases ha : e.send d' s with ⟨result | mark, s'⟩
        all_goals rw [ha] at hbeside
        · exact hbeside
        · cases hlater : (meanwhile d' mark s').bind (e.resume d' mark) with
          | none => simpa only [hlater] using hbeside
          | some late => simpa only [hlater] using hbeside.trans ((hlate d' mark).beside hlater)
  | _ => exact he hc

end Wiring

/-! ## Scripted callees -/

namespace Scripted

/-- Every subscription has a transport of its own, which keeps to its script. -/
def wiring : Wiring Cast Subscription Part Mood where
  transport := id
  part := Cast.part
  mood := Cast.mood

/-- Changes what the transport of a delivery keeps. -/
def alter (d : Delivery) (f : Part → Part) (s : Site Cast) : Site Cast :=
  { s with outside := { s.outside with parts := s.outside.parts.modify d.subscription f } }

section Acts

variable (d : Delivery)

theorem confined_alter (f : Part → Part) : wiring.Confined d fun s => ((), alter d f s) where
  alike {s u} hs := by
    simp only [Wiring.outlook, Outlook.mk.injEq] at hs ⊢
    refine ⟨trivial, hs.1, ?_, hs.2.2⟩
    simp only [wiring, id_eq, Cast.part, alter, Table.get_modify, if_true] at hs ⊢
    rw [hs.2.1]
  beside s := by
    refine ⟨rfl, fun x hx => ?_, fun _ _ => rfl, fun _ _ => rfl⟩
    simp only [wiring, id_eq, Cast.part, alter, Table.get_modify] at hx ⊢
    rw [if_neg (Ne.symm hx)]

theorem confined_play (cue : Cue) : wiring.Confined d (play cue d) where
  alike {s u} hs := by
    simp only [Wiring.outlook, Outlook.mk.injEq] at hs ⊢
    exact ⟨rfl, hs.1, hs.2.1, (Books.applyAll_spec (cue.concerns d) s.books u.books).1 hs.2.2⟩
  beside s :=
    have hspec := Books.applyAll_spec (cue.concerns d) s.books s.books
    ⟨rfl, fun _ _ => rfl, hspec.2.1, hspec.2.2⟩

/-- A send that waited needs a permit, and plays its cue. -/
theorem confinedIf_resume (mark : Nat) : wiring.ConfinedIf d (resume d mark) where
  alike {s u} hs := by
    have hpart : s.outside.part d.subscription = u.outside.part d.subscription :=
      congrArg Outlook.part hs
    have husing := (confined_alter d fun p => { p with permits := p.permits - 1 }).alike hs
    simp only [resume, usePermit?, hpart]
    split
    · exact .inl ⟨rfl, rfl⟩
    · exact .inr ⟨_, _, _, rfl, rfl, ((confined_play d _).alike husing.2).2⟩
  beside {s a s'} h := by
    have husing := (confined_alter d fun p => { p with permits := p.permits - 1 }).beside s
    simp only [resume, usePermit?] at h
    split at h
    · cases h
    · cases h
      exact husing.trans ((confined_play d _).beside _)

theorem confined_send : wiring.Confined d (send d) where
  alike {s u} hs := by
    have hpart : s.outside.part d.subscription = u.outside.part d.subscription :=
      congrArg Outlook.part hs
    have hstarted : wiring.outlook d (started d s) = wiring.outlook d (started d u) :=
      ((confined_alter d fun p => { p with sends := p.sends + 1 }).alike hs).2
    rw [send_eq, send_eq, hpart]
    split
    · rcases (confinedIf_resume d (u.outside.part d.subscription).sends).alike hstarted with
        ⟨hs', hu'⟩ | ⟨_, _, _, hs', hu', hlater⟩
      · rw [hs', hu']
        exact ⟨rfl, hstarted⟩
      · rw [hs', hu']
        exact ⟨rfl, hlater⟩
    · exact ⟨rfl, ((confined_play d _).alike hstarted).2⟩
  beside s := by
    have hstarted : wiring.Beside d s (started d s) :=
      (confined_alter d fun p => { p with sends := p.sends + 1 }).beside s
    rw [send_eq]
    split
    · split
      · exact hstarted.trans ((confinedIf_resume d _).beside ‹_›)
      · exact hstarted
    · exact hstarted.trans ((confined_play d _).beside _)

end Acts

/-- The services keep what they are given in the store, where nobody can see it. -/
theorem confined_of_store {α : Type} (d : Delivery) {act : Site Cast → Except Crash α × Site Cast}
    (answer : Mood → Except Crash α)
    (h : ∀ s, (act s).1 = answer s.outside.mood ∧ (act s).2.books = s.books ∧
      (act s).2.outside.parts = s.outside.parts ∧ (act s).2.outside.mood = s.outside.mood) :
    wiring.Confined d fun s => (act s).map Attempt.ended id where
  alike {s u} hs := by
    obtain ⟨hanswer, hbooks, hparts, hmood⟩ := h s
    obtain ⟨hanswer', hbooks', hparts', hmood'⟩ := h u
    simp only [Wiring.outlook, Outlook.mk.injEq] at hs ⊢
    simp only [wiring, Cast.part, Prod.map_fst, Prod.map_snd, id_eq, hanswer, hanswer', hbooks,
      hbooks', hparts, hparts', hmood, hmood'] at hs ⊢
    exact ⟨congrArg (fun mood => Attempt.ended (answer mood)) hs.1, hs⟩
  beside s := by
    obtain ⟨-, hbooks, hparts, hmood⟩ := h s
    refine ⟨hmood, fun x _ => ?_, fun m _ => ?_, fun x _ => ?_⟩
    · simp only [wiring, Cast.part, Prod.map_snd, id_eq, hparts]
    · rw [Prod.map_snd, id_eq, hbooks]
    · rw [Prod.map_snd, id_eq, hbooks]

theorem secludes (listening : Bool) : wiring.Secludes (environment listening) := by
  intro d c hc
  cases c with
  | send d' =>
      obtain rfl : d' = d := hc
      exact confined_send d'
  | requeue m =>
      exact confined_of_store d (fun mood => (behaviour listening mood).requeue m)
        (requeue_spec listening m)
  | moveToDeadLetters m destination queue =>
      exact confined_of_store d
        (fun mood => (behaviour listening mood).moveToDeadLetters m destination queue)
        (moveToDeadLetters_spec listening m destination queue)
  | trace kind m =>
      exact confined_of_store d (fun mood => (behaviour listening mood).trace kind m)
        fun s => ⟨rfl, rfl, rfl, rfl⟩
  | count metric =>
      exact confined_of_store d (fun mood => (behaviour listening mood).count metric)
        fun s => ⟨rfl, rfl, rfl, rfl⟩

end Scripted

/-! ## Plans -/

/-- What a query of a delivery finds depends on nothing but its records. -/
theorem Query.Concerns.holds_eq_of_records {q : Query} {d : Delivery} (h : q.Concerns d)
    {b b' : Books} (hb : b.records d = b'.records d) : q.holds b = q.holds b' := by
  simp only [Books.records, Prod.mk.injEq] at hb
  cases q <;>
    simp_all [Concerns, Query.holds, Books.isStale, Books.isDisposable, Books.isActive]

/-- A scene comes of another, and a third of a fourth, by the same notes; and in the end the same
can be seen of a delivery. -/
structure Scene.Alike (w : Wiring σ ρ τ μ) (d : Delivery) (s y s' y' : Scene σ) : Prop where
  outlook : w.outlook d s'.toSite = w.outlook d y'.toSite
  notes : ∃ told, s'.notes = s.notes ++ told ∧ y'.notes = y.notes ++ told

namespace Scene.Alike

variable {w : Wiring σ ρ τ μ} {d : Delivery} {s y s' y' s'' y'' : Scene σ}

theorem refl (hs : w.outlook d s.toSite = w.outlook d y.toSite) : Scene.Alike w d s y s y :=
  ⟨hs, [], by simp, by simp⟩

theorem trans (h : Scene.Alike w d s y s' y') (h' : Scene.Alike w d s' y' s'' y'') :
    Scene.Alike w d s y s'' y'' := by
  obtain ⟨told, hs, hy⟩ := h.notes
  obtain ⟨more, hs', hy'⟩ := h'.notes
  refine ⟨h'.outlook, told ++ more, ?_, ?_⟩
  · rw [hs', hs, List.append_assoc]
  · rw [hy', hy, List.append_assoc]

theorem log (h : Scene.Alike w d s y s' y') (line : Line) :
    Scene.Alike w d s y (s'.log line) (y'.log line) :=
  h.trans ⟨h.outlook, _, s'.notes_log line, y'.notes_log line⟩

end Scene.Alike

namespace Plan

/-- A plan that reads and edits nothing but the records of a delivery, and makes only calls that
concern it. -/
def Concerns (d : Delivery) : Plan → Prop
  | finish _ => True
  | log _ rest => rest.Concerns d
  | edit change rest => change.Concerns d ∧ rest.Concerns d
  | countRollback rest => rest.Concerns d
  | check q rest => q.Concerns d ∧ ∀ answer, (rest answer).Concerns d
  | call c rest => c.Concerns d ∧ ∀ reply, (rest reply).Concerns d

section Shapes

variable {queue : String} {d : Delivery}

theorem concerns_rollback {rest : Plan} (h : rest.Concerns d) : (rollback d rest).Concerns d :=
  ⟨rfl, rfl, rfl, h⟩

theorem concerns_deadLetter : (deadLetter queue d.message).Concerns d := by
  unfold deadLetter
  split
  · trivial
  · refine ⟨rfl, fun reply => ?_⟩
    cases reply with
    | ok _ => exact ⟨rfl, fun _ => ⟨trivial, fun _ => trivial⟩⟩
    | error _ => trivial

theorem concerns_recover : (recover d).Concerns d := by
  unfold recover
  split
  · exact ⟨rfl, fun _ => ⟨trivial, fun _ => trivial⟩⟩
  · refine ⟨rfl, fun disposable => ?_⟩
    cases disposable <;> trivial

theorem concerns_afterSend (reply : Except SendFailure Unit) :
    (afterSend queue d reply).Concerns d := by
  cases reply with
  | ok _ => exact ⟨rfl, fun _ => ⟨trivial, fun _ => trivial⟩⟩
  | error failure =>
      cases failure with
      | ruleViolation reason => exact concerns_rollback concerns_deadLetter
      | transient reason => exact concerns_rollback concerns_recover
      | unexpected reason => trivial

/-- The recovery policy keeps to its delivery. -/
theorem concerns_dispatch (queue : String) (d : Delivery) (failed : Bool) :
    (dispatch queue d failed).Concerns d := by
  unfold dispatch
  split
  · exact concerns_rollback concerns_deadLetter
  · refine ⟨rfl, fun stale => ?_⟩
    cases stale with
    | true => exact concerns_rollback ⟨rfl, fun _ => trivial⟩
    | false =>
        refine ⟨rfl, fun active => ?_⟩
        cases active with
        | false => exact concerns_rollback concerns_recover
        | true => exact ⟨rfl, concerns_afterSend⟩

end Shapes

namespace Concerns

variable {w : Wiring σ ρ τ μ} {e : Environment σ} {d : Delivery} {plan : Plan}

/-- A run leaves everything as it is but what can be seen of its delivery. -/
theorem beside (h : plan.Concerns d) (hw : w.Secludes e) (t : Tally) (s : Scene σ) :
    w.Beside d s.toSite (plan.run e t s).2.2.toSite := by
  induction plan generalizing t s with
  | finish outcome => exact .refl d _
  | log line rest ih => exact ih h t (s.log line)
  | edit change rest ih =>
      have hedit : w.Beside d s.toSite (s.edit change).toSite :=
        ⟨rfl, fun _ _ => rfl, fun _ hm => h.1.messages_eq s.books hm,
          fun _ hx => h.1.subscriptions_eq s.books hx⟩
      exact hedit.trans (ih h.2 t (s.edit change))
  | countRollback rest ih => exact ih h t.countRollback s
  | check q rest ih => exact ih _ (h.2 _) t s
  | call c rest ih =>
      have hcall := (hw h.1).beside s.toSite
      rcases ha : e.answer c s.toSite with ⟨(crash | reply) | mark, site⟩
      all_goals rw [ha] at hcall
      · rw [run_call_crash ha]
        exact hcall
      · rw [run_call_ok ha]
        exact hcall.trans (ih reply (h.2 reply) t (s.answered c (.ok reply) site))
      · rw [run_call_waiting ha]
        exact hcall

/-- With the same to be seen of its delivery, a plan is carried out alike. -/
theorem alike (h : plan.Concerns d) (hw : w.Secludes e) (t u : Tally) {s y : Scene σ}
    (hs : w.outlook d s.toSite = w.outlook d y.toSite) :
    (plan.run e t s).1 = (plan.run e u y).1 ∧
      Scene.Alike w d s y (plan.run e t s).2.2 (plan.run e u y).2.2 := by
  induction plan generalizing t u s y with
  | finish outcome => exact ⟨rfl, .refl hs⟩
  | log line rest ih =>
      obtain ⟨hending, halike⟩ := ih h t u (s := s.log line) (y := y.log line) hs
      exact ⟨hending, ((Scene.Alike.refl hs).log line).trans halike⟩
  | edit change rest ih =>
      have hedit : w.outlook d (s.edit change).toSite = w.outlook d (y.edit change).toSite := by
        simp only [Wiring.outlook, Outlook.mk.injEq] at hs ⊢
        exact ⟨hs.1, hs.2.1, h.1.records_eq hs.2.2⟩
      obtain ⟨hending, halike⟩ := ih h.2 t u hedit
      have hchange : Scene.Alike w d s y (s.edit change) (y.edit change) :=
        ⟨hedit, [], by simp, by simp⟩
      exact ⟨hending, hchange.trans halike⟩
  | countRollback rest ih => exact ih h t.countRollback u.countRollback hs
  | check q rest ih =>
      have hholds : q.holds s.books = q.holds y.books :=
        h.1.holds_eq_of_records (congrArg Outlook.records hs)
      simp only [run, hholds]
      exact ih _ (h.2 _) t u hs
  | call c rest ih =>
      obtain ⟨hanswer, hsites⟩ := (hw h.1).alike hs
      rcases ha : e.answer c s.toSite with ⟨(crash | reply) | mark, site⟩
      all_goals
        rcases hb : e.answer c y.toSite with ⟨attempt, site'⟩
        rw [ha, hb] at hanswer hsites
        obtain rfl : _ = attempt := hanswer
      · rw [run_call_crash ha, run_call_crash hb]
        exact ⟨rfl, hsites, _, s.notes_answered_error c crash site,
          y.notes_answered_error c crash site'⟩
      · rw [run_call_ok ha, run_call_ok hb]
        have hcall : Scene.Alike w d s y (s.answered c (.ok reply) site)
            (y.answered c (.ok reply) site') :=
          ⟨hsites, _, s.notes_answered_ok c reply site, y.notes_answered_ok c reply site'⟩
        obtain ⟨hending, halike⟩ := ih reply (h.2 reply) t u hcall.outlook
        exact ⟨hending, hcall.trans halike⟩
      · rw [run_call_waiting ha, run_call_waiting hb]
        exact ⟨rfl, hsites, _, s.notes_note_called c _, y.notes_note_called c _⟩

end Concerns

end Plan

/-! ## Turns -/

/-- A slot that a handler is shown, with its sequence, and whether a batch ends with it. -/
structure Event where
  slot : Slot
  sequence : Nat
  last : Bool

/-- An event that shares nothing with a delivery. -/
def Wiring.Elsewhere (w : Wiring σ ρ τ μ) (d : Delivery) (x : Event) : Prop :=
  ∀ d' ∈ x.slot.delivery, w.Apart d d'

namespace Handler

/-- Shows a handler an event. -/
def attend (h : Handler) (e : Environment σ) (x : Event) (s : Scene σ) : Turn σ :=
  h.handle e x.slot x.sequence x.last s

/-- Shows a handler events, one after another. A send that still waits is given up. -/
def attendAll (h : Handler) (e : Environment σ) (s : Scene σ) : List Event → Handler × Scene σ
  | [] => (h, s)
  | x :: events => (h.attend e x s).handler.attendAll e (h.attend e x s).scene events

/-- The turn for an event that comes after others. -/
def attendAfter (h : Handler) (e : Environment σ) (s : Scene σ) (before : List Event) (x : Event) :
    Turn σ :=
  (h.attendAll e s before).1.attend e x (h.attendAll e s before).2

/-- An event of a delivery goes as it would have gone without the events before and after it: with
the same report, the same calls and lines, and the same records in the end. -/
structure Unaffected (h : Handler) (e : Environment σ) (s : Scene σ) (d : Delivery)
    (before : List Event) (x : Event) (after : List Event) : Prop where
  result : (h.attendAfter e s before x).result = (h.attend e x s).result
  slot : (h.attendAfter e s before x).slot = (h.attend e x s).slot
  notes : (h.attendAfter e s before x).scene.notedSince (h.attendAll e s before).2 =
    (h.attend e x s).scene.notedSince s
  records : (h.attendAll e s (before ++ x :: after)).2.books.records d =
    (h.attend e x s).scene.books.records d

theorem attendAll_append (h : Handler) (e : Environment σ) (s : Scene σ)
    (before after : List Event) :
    h.attendAll e s (before ++ after) =
      (h.attendAll e s before).1.attendAll e (h.attendAll e s before).2 after := by
  induction before generalizing h s with
  | nil => rfl
  | cons x before ih => exact ih _ _

section Turns

variable {w : Wiring σ ρ τ μ} {e : Environment σ} {d : Delivery} {h k : Handler} {x : Event}
  {s y : Scene σ}

/-- A turn does not change what the handler is for. -/
theorem role_attend (h : Handler) (e : Environment σ) (x : Event) (s : Scene σ) :
    (h.attend e x s).handler.role = h.role := by
  rw [attend]
  cases hclaim : h.claim? x.slot with
  | none =>
      rw [handle_of_foreign hclaim]
      rfl
  | some d =>
      rw [handle_of_claim hclaim]
      rcases h.course e d x.slot.failed x.sequence x.last s with ⟨_ | _ | _, t, y⟩ <;> rfl

/-- What a handler does elsewhere cannot be seen of a delivery. -/
theorem outlook_attend (hw : w.Secludes e) (hx : w.Elsewhere d x) (h : Handler) (s : Scene σ) :
    w.outlook d (h.attend e x s).scene.toSite = w.outlook d s.toSite := by
  rw [attend, ← h.toSite_see x.sequence x.last s]
  cases hclaim : h.claim? x.slot with
  | none => rw [handle_of_foreign hclaim]
  | some d' =>
      have hbeside := (Plan.concerns_dispatch h.queue d' x.slot.failed).beside hw
        h.tally.countSeen.countOwned (h.see x.sequence x.last s).2
      rw [handle_of_claim hclaim, toSite_conclude]
      exact hbeside.outlook_eq (hx d' (claim?_eq_some_iff.mp hclaim).1)

theorem attendAll_elsewhere (hw : w.Secludes e) {events : List Event}
    (hevents : ∀ x ∈ events, w.Elsewhere d x) (h : Handler) (s : Scene σ) :
    (h.attendAll e s events).1.role = h.role ∧
      w.outlook d (h.attendAll e s events).2.toSite = w.outlook d s.toSite := by
  induction events generalizing h s with
  | nil => exact ⟨rfl, rfl⟩
  | cons x events ih =>
      obtain ⟨hrole, houtlook⟩ := ih (fun y hy => hevents y (List.mem_cons_of_mem _ hy))
        (h.attend e x s).handler (h.attend e x s).scene
      exact ⟨hrole.trans (h.role_attend e x s),
        houtlook.trans (outlook_attend hw (hevents x List.mem_cons_self) h s)⟩

theorem see_alike (hrole : h.role = k.role) (hs : w.outlook d s.toSite = w.outlook d y.toSite)
    (sequence : Nat) (last : Bool) :
    Scene.Alike w d s y (h.see sequence last s).2 (k.see sequence last y).2 := by
  have hordinal : h.ordinal = k.ordinal := congrArg Prod.fst hrole
  cases last with
  | false => exact .refl hs
  | true =>
      simp only [see, if_true, hordinal]
      exact (Scene.Alike.refl hs).log _

theorem conclude_alike (h k : Handler) {course course' : Plan.Ending × Tally × Scene σ}
    (hending : course.1 = course'.1) (halike : Scene.Alike w d s y course.2.2 course'.2.2) :
    (h.conclude d course).result = (k.conclude d course').result ∧
      (h.conclude d course).slot = (k.conclude d course').slot ∧
      Scene.Alike w d s y (h.conclude d course).scene (k.conclude d course').scene := by
  rcases course with ⟨ending, t, s'⟩
  rcases course' with ⟨ending', t', y'⟩
  obtain rfl : ending = ending' := hending
  cases ending with
  | finished outcome => exact ⟨rfl, rfl, halike⟩
  | crashed crash => exact ⟨rfl, rfl, halike.log _⟩
  | waiting c mark rest => exact ⟨rfl, rfl, halike⟩

/-- Handlers of the same role attend alike to an event of which the same can be seen. -/
theorem attend_alike (hw : w.Secludes e) (hrole : h.role = k.role)
    (hs : w.outlook d s.toSite = w.outlook d y.toSite) (hx : x.slot.delivery = some d) :
    (h.attend e x s).result = (k.attend e x y).result ∧
      (h.attend e x s).slot = (k.attend e x y).slot ∧
      Scene.Alike w d s y (h.attend e x s).scene (k.attend e x y).scene := by
  have hsee := see_alike hrole hs x.sequence x.last
  simp only [role, Prod.mk.injEq] at hrole
  have hserves : h.serves = k.serves := by
    funext d'
    rw [serves, serves, hrole.1, hrole.2.1]
  have hclaims : h.claim? x.slot = k.claim? x.slot := by rw [claim?, claim?, hserves]
  simp only [attend]
  cases hclaim : h.claim? x.slot with
  | none =>
      rw [handle_of_foreign hclaim, handle_of_foreign (hclaims ▸ hclaim)]
      exact ⟨rfl, rfl, hsee⟩
  | some d' =>
      obtain rfl : d = d' := Option.some.inj (hx.symm.trans (claim?_eq_some_iff.mp hclaim).1)
      rw [handle_of_claim hclaim, handle_of_claim (hclaims ▸ hclaim)]
      obtain ⟨hending, hcourse⟩ := (Plan.concerns_dispatch h.queue d x.slot.failed).alike hw
        h.tally.countSeen.countOwned k.tally.countSeen.countOwned hsee.outlook
      rw [hrole.2.2] at hending hcourse
      refine conclude_alike h k ?_ ?_
      · rw [course, course, hrole.2.2]
        exact hending
      · rw [course, course, hrole.2.2]
        exact hsee.trans hcourse

namespace Rehearsal

def neighbour (n : Nat) : Delivery := ⟨⟨n, ⟨0, 0⟩, true⟩, ⟨n, ⟨8⟩, "orders", .queue⟩, {}⟩

/-- The sends of the first neighbour crash, and those of the second wait for ever. -/
def street : Scene Scripted.Cast where
  books := ({} : Books).applyAll (Edit.inFlight delivery.message delivery.subscription)
  outside := { parts := ⟨[
    (delivery.subscription, { cues := [{ waits := true, ending := .fails (.transient "gone") }] }),
    ((neighbour 1).subscription, { cues := [{ ending := .crashes (.saying "boom") }] }),
    ((neighbour 2).subscription, { cues := [{ waits := true }] })]⟩ }

/-- Only one delivery ever gets a permit. -/
def favour (d : Delivery) (mark : Nat) (s : Site Scripted.Cast) : Option (Site Scripted.Cast) :=
  if d = delivery then permit d mark s else none

theorem secludes_favour :
    Scripted.wiring.Secludes ((Scripted.environment true).patient favour) := by
  refine Wiring.Secludes.patient (Scripted.secludes true) fun d mark => ?_
  by_cases hd : d = delivery
  · have hpermit := Scripted.confined_alter d fun p => { p with permits := p.permits + 1 }
    simp only [favour, if_pos hd, permit, Option.bind_some]
    exact ⟨fun hs => (Scripted.confinedIf_resume d mark).alike (hpermit.alike hs).2,
      fun h => (hpermit.beside _).trans ((Scripted.confinedIf_resume d mark).beside h)⟩
  · simp only [favour, if_neg hd, Option.bind_none]
    exact ⟨fun _ => .inl ⟨rfl, rfl⟩, by simp⟩

theorem elsewhere_neighbour (n sequence : Nat) (failed last : Bool) :
    Scripted.wiring.Elsewhere delivery ⟨.holding (neighbour (n + 1)) failed, sequence, last⟩ := by
  intro d hd
  obtain rfl : neighbour (n + 1) = d := Option.some.inj hd
  constructor <;> simp [Scripted.wiring, delivery, neighbour]

end Rehearsal

/-- An event that shares neither its message nor its transport with others is dealt with as if the
handler were shown nothing else, whatever becomes of the others. A send that waits is given up here:
one that is waited for is a send of callees that are waited for (`Wiring.Secludes.patient`). -/
theorem unaffected (hw : w.Secludes e) (h : Handler) (s : Scene σ) {before after : List Event}
    (hx : x.slot.delivery = some d) (hothers : ∀ y ∈ before ++ after, w.Elsewhere d y) :
    h.Unaffected e s d before x after := by
  obtain ⟨hrole, houtlook⟩ := attendAll_elsewhere hw
    (fun y hy => hothers y (List.mem_append_left _ hy)) h s
  obtain ⟨hresult, hslot, halike⟩ := attend_alike hw hrole houtlook hx
  obtain ⟨told, hturn, halone⟩ := halike.notes
  obtain ⟨-, hlater⟩ := attendAll_elsewhere hw
    (fun y hy => hothers y (List.mem_append_right _ hy)) (h.attendAfter e s before x).handler
    (h.attendAfter e s before x).scene
  refine ⟨hresult, hslot, ?_, ?_⟩
  · exact (Scene.notedSince_eq hturn).trans (Scene.notedSince_eq halone).symm
  · rw [attendAll_append]
    exact congrArg Outlook.records (hlater.trans halike.outlook)

/-- A send waits, gets its permit and breaks, and the message is requeued: the same as if no send
had crashed before, no other had been given up, and nothing had come after it. -/
theorem unaffected_rehearsal :
    let e := (Scripted.environment true).patient Rehearsal.favour
    let event (d : Delivery) (failed last : Bool) : Event := ⟨.holding d failed, 0, last⟩
    let before := [event (Rehearsal.neighbour 1) false false,
      event (Rehearsal.neighbour 2) false true]
    let after := [event (Rehearsal.neighbour 1) true false]
    let x := event Rehearsal.delivery false true
    let calls := (Rehearsal.handler.attendAll e Rehearsal.street (before ++ x :: after)).2.calls
    calls = [.send (Rehearsal.neighbour 1), .send (Rehearsal.neighbour 2),
        .send Rehearsal.delivery, .requeue Rehearsal.delivery.message, .count .requeued,
        .moveToDeadLetters (Rehearsal.neighbour 1).message "orders" "dead",
        .trace .deadLettered (Rehearsal.neighbour 1).message, .count .deadLettered] ∧
      (∀ y ∈ before ++ after, Scripted.wiring.Elsewhere Rehearsal.delivery y) ∧
      Rehearsal.handler.Unaffected e Rehearsal.street Rehearsal.delivery before x after := by
  intro e event before after x calls
  have hothers : ∀ y ∈ before ++ after, Scripted.wiring.Elsewhere Rehearsal.delivery y := by
    simp only [before, after, event, List.cons_append, List.nil_append, List.forall_mem_cons,
      List.not_mem_nil, false_implies, implies_true, and_true]
    exact ⟨Rehearsal.elsewhere_neighbour 0 _ _ _, Rehearsal.elsewhere_neighbour 1 _ _ _,
      Rehearsal.elsewhere_neighbour 0 _ _ _⟩
  exact ⟨by decide +kernel, hothers, unaffected Rehearsal.secludes_favour _ _ rfl hothers⟩

end Turns

end Handler

end ShardedDelivery
