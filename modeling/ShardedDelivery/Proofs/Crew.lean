import Mathlib.Logic.Relation
import ShardedDelivery.Proofs.Plan.Notes
import ShardedDelivery.Proofs.Shift

/-! # Crews

A crew is a fixed set of handlers that work on one site, in turns that may overlap while a send
waits. Whatever a crew has done since it started is told by the notes of the turns that are over,
and by the sends of those that wait. -/

namespace ShardedDelivery

variable {σ : Type}

/-- Handlers at work, their scene, what they have been shown, and the turns that wait, each with the
place of its handler. A turn that was given up is never resumed. -/
structure Crew (σ : Type) where
  handlers : List Handler
  scene : Scene σ
  past : List Showing := []
  air : List (Nat × Suspended) := []

/-- What the callees may do, and what others may do to the site between two turns. -/
structure Rules (σ : Type) where
  callees : Environment σ → Prop
  others : Site σ → Site σ → Prop

namespace Rules

/-- Everyone does as they like. -/
def free : Rules σ where
  callees _ := True
  others _ _ := True

/-- Nobody but the handlers counts failures. -/
def keepFailures : Rules σ where
  callees := Environment.KeepsFailures
  others s s' := ∀ m ch, s'.books.failures m ch = s.books.failures m ch

end Rules

namespace Crew

/-- Handlers that have seen nothing yet, by ordinal, count and dead letter queue. -/
def opening (posts : List (Nat × Nat × String)) (site : Site σ) : Crew σ where
  handlers := posts.map fun (ordinal, count, queue) => .new ordinal count queue
  scene := { toSite := site }

/-- All counters of the handlers, added up. -/
def tally (c : Crew σ) : Tally := .total (c.handlers.map (·.tally))

/-- One handler has had a turn. -/
def after (c : Crew σ) (place : Nat) (turn : Turn σ) (past : List Showing)
    (air : List (Nat × Suspended)) : Crew σ where
  handlers := c.handlers.set place turn.handler
  scene := turn.scene
  past
  air

/-- The reports that came out, in their order. -/
def reports (c : Crew σ) : List Report := c.past.filterMap (·.result.report?)

/-- The reports that were lost, in their order. -/
def lost (c : Crew σ) : List Report := c.past.filterMap (·.result.lost?)

/-- All reports that were made, in their order. -/
def made (c : Crew σ) : List Report := c.past.filterMap (·.result.made?)

theorem countP_made (c : Crew σ) (p : Report → Bool) :
    c.made.countP p = c.reports.countP p + c.lost.countP p :=
  Upshot.countP_made Showing.result p c.past

/-- What may happen next: a handler is shown a slot and is done with it, or waits for its send; a
turn that waits is resumed; or others do something in between. At the end of a turn, to let go of
the delivery may crash or not. -/
inductive Step (rules : Rules σ) (c : Crew σ) : Crew σ → Prop where
  | shown (place : Nat) {h : Handler} {e : Environment σ} (hplace : c.handlers[place]? = some h)
      (he : rules.callees e) (slot : Slot) (sequence : Nat) (last crashes : Bool)
      (hresult : (h.handle e slot sequence last c.scene).result ≠ .waiting) :
      Step rules c (c.after place (h.handle e slot sequence last c.scene)
        (c.past ++ [⟨h, slot, (h.handle e slot sequence last c.scene).result.letGo crashes⟩])
        c.air)
  | waits (place : Nat) {h : Handler} {e : Environment σ} (hplace : c.handlers[place]? = some h)
      (he : rules.callees e) (slot : Slot) (sequence : Nat) (last : Bool) {d : Delivery}
      {mark : Nat} {rest : Except SendFailure Unit → Plan} {t : Tally} {s : Scene σ}
      (hclaim : h.claim? slot = some d)
      (hcourse : h.course e d slot.failed sequence last c.scene =
        (.waiting (.send d) mark rest, t, s)) :
      Step rules c (c.after place (h.conclude d (.waiting (.send d) mark rest, t, s)) c.past
        (c.air ++ [(place, ⟨h, slot, d, mark, rest⟩)]))
  | resumed (before : List (Nat × Suspended)) {after : List (Nat × Suspended)} {place : Nat}
      {h : Handler} {x : Suspended} {e : Environment σ}
      (hair : c.air = before ++ (place, x) :: after)
      (hplace : c.handlers[place]? = some h) (he : rules.callees e)
      {result : Except Crash (Except SendFailure Unit)} {s : Scene σ} (crashes : Bool)
      (hlate : c.scene.callLate e (.send x.delivery) x.mark = some (result, s)) :
      Step rules c (c.after place ({ x with handler := h }.resume e result s)
        (c.past ++ [⟨h, x.slot, ({ x with handler := h }.resume e result s).result.letGo crashes⟩])
        (before ++ after))
  | meanwhile (site : Site σ) (hsite : rules.others c.scene.toSite site) :
      Step rules c { c with scene := c.scene.moveTo site }

/-- What may happen in the course of time. -/
def Run (rules : Rules σ) : Crew σ → Crew σ → Prop := Relation.ReflTransGen (Step rules)

end Crew

namespace Tally

theorem counter_add (t u : Tally) (kind : OutcomeKind) :
    (t + u).counter kind = t.counter kind + u.counter kind := by
  cases kind <;> rfl

theorem rollbacks_add (t u : Tally) : (t + u).rollbacks = t.rollbacks + u.rollbacks := rfl

end Tally

/-! ## Turns -/

namespace Handler

variable (h : Handler) (e : Environment σ) (d : Delivery) (failed : Bool) (sequence : Nat)
  (last : Bool) (s : Scene σ)

/-- What the handler notes before it looks into the slot. -/
def batchNotes : List Note := if last then [.logged (.endOfBatch h.ordinal sequence)] else []

theorem noted_see :
    Scene.Noted e h.tally s (h.batchNotes sequence last) h.tally.countSeen
      (h.see sequence last s).2 := by
  have hseen (s : Scene σ) : Scene.Noted e h.tally s [] h.tally.countSeen s :=
    .unnoted (by simp) rfl
  cases last with
  | false => exact hseen s
  | true => exact (Scene.Noted.log _).trans (hseen _)

/-- A delivery leaves notes that its plan may leave. -/
theorem noted_course :
    ∃ told, (Plan.dispatch h.queue d failed).Traces told
        (h.course e d failed sequence last s).1 ∧
      Scene.Noted e h.tally s (h.batchNotes sequence last ++ told)
        (h.course e d failed sequence last s).2.1 (h.course e d failed sequence last s).2.2 := by
  obtain ⟨told, htraces, hnoted⟩ := Plan.traces_run (Plan.dispatch h.queue d failed) e
    h.tally.countSeen.countOwned (h.see sequence last s).2
  have howned : Scene.Noted e h.tally.countSeen (h.see sequence last s).2 []
      h.tally.countSeen.countOwned (h.see sequence last s).2 :=
    .unnoted (by simp) rfl
  exact ⟨told, htraces, (h.noted_see e sequence last s).trans (howned.trans hnoted)⟩

theorem noted_conclude (course : Plan.Ending × Tally × Scene σ) :
    Scene.Noted e course.2.1 course.2.2 (course.1.notes d) (h.conclude d course).handler.tally
      (h.conclude d course).scene := by
  rcases course with ⟨_ | _ | _, t, s⟩
  · exact .countOutcome _
  · exact (Scene.Noted.log _).trans (.countOutcome _)
  · exact .refl e t s

theorem result_conclude (course : Plan.Ending × Tally × Scene σ) :
    (h.conclude d course).result = match course.1.outcome? with
      | some outcome => .reported ⟨d.message.id, d.subscription.channel, outcome⟩
      | none => .waiting := by
  rcases course with ⟨_ | _ | _, t, s⟩ <;> rfl

theorem queue_conclude (course : Plan.Ending × Tally × Scene σ) :
    (h.conclude d course).handler.queue = h.queue := by
  rcases course with ⟨_ | _ | _, t, s⟩ <;> rfl

end Handler

/-- All that a turn in the air has done so far is to make its send, and what is done next follows
from that. -/
def Suspended.Awaits (x : Suspended) (queue : String) : Prop :=
  x.slot.delivery = some x.delivery ∧
    (Plan.dispatch queue x.delivery x.slot.failed).Traces [.asked (.send x.delivery)]
      (.waiting (.send x.delivery) x.mark x.rest)

/-- A turn that is resumed comes to an end, and leaves notes that its plan may leave. -/
theorem Suspended.noted_course (x : Suspended) {e : Environment σ} {s s' : Scene σ}
    {result : Except Crash (Except SendFailure Unit)} (hx : x.Awaits x.handler.queue)
    (hlate : s.callLate e (.send x.delivery) x.mark = some (result, s')) :
    (x.course e result s').1.outcome? ≠ none ∧
      ∃ told, (Plan.dispatch x.handler.queue x.delivery x.slot.failed).Traces
          (.asked (.send x.delivery) :: told) (x.course e result s').1 ∧
        Scene.Noted e x.handler.tally s told (x.course e result s').2.1
          (x.course e result s').2.2 := by
  obtain ⟨-, hwaits⟩ := hx
  simp only [Scene.callLate, Option.map_eq_some_iff, Prod.mk.injEq] at hlate
  obtain ⟨⟨result', site⟩, hanswer, rfl, rfl⟩ := hlate
  cases result' with
  | error crash =>
      refine ⟨by simp [course, Plan.Ending.outcome?], [], hwaits.crashes, ?_⟩
      exact .of_late hanswer rfl (List.append_nil _).symm (by simp)
  | ok reply =>
      obtain ⟨told, htraces, hnoted⟩ := Plan.traces_run (x.rest reply) e x.handler.tally
        ((s.moveTo site).noteEnd (.send x.delivery) (.ok reply))
      have hanswered : Scene.Noted e x.handler.tally s
          [.answered (.send x.delivery) ((Call.send x.delivery).accepted reply)] x.handler.tally
          ((s.moveTo site).noteEnd (.send x.delivery) (.ok reply)) :=
        .of_late hanswer rfl (Scene.notes_noteEnd_ok _ _ reply) (by simp [Note.inJournal])
      have hresumed := hwaits.resume htraces
      refine ⟨fun hnone => ?_, _, hresumed, hanswered.trans hnoted⟩
      have hsend := hresumed.delivering.eq_of_waiting hnone
      simp at hsend

/-- A turn that is over has left these notes of the delivery, if there was one. -/
inductive Showing.Undergoes (v : Showing) : List Note → Prop where
  | foreign (hresult : v.result = .foreign) : v.Undergoes []
  | reported {d : Delivery} {told : List Note} {ending : Plan.Ending} {outcome : Outcome}
      (hslot : v.slot.delivery = some d)
      (htraces : (Plan.dispatch v.handler.queue d v.slot.failed).Traces told ending)
      (houtcome : ending.outcome? = some outcome)
      (hmade : v.result.made? = some ⟨d.message.id, d.subscription.channel, outcome⟩) :
      v.Undergoes (told ++ ending.notes d)

/-- The outcome of the report that was made, if one was. -/
def Showing.outcome? (v : Showing) : Option Outcome := v.result.made?.map (·.outcome)

/-- Exactly the outcome of the report was counted. -/
theorem Showing.Undergoes.count_outcome {v : Showing} {told : List Note} (h : v.Undergoes told)
    (outcome : Outcome) :
    told.count (.countedOutcome outcome) = if v.outcome? = some outcome then 1 else 0 := by
  cases h with
  | foreign hresult => simp [outcome?, hresult, Upshot.made?]
  | @reported d told ending outcome' hslot htraces houtcome hmade =>
      have hnotes : (ending.notes d).count (.countedOutcome outcome) =
          if outcome' = outcome then 1 else 0 := by
        cases ending <;> cases houtcome <;> simp [Plan.Ending.notes, List.count_cons]
      have hnone := List.count_eq_zero.mpr (htraces.countedOutcome_notMem outcome)
      simp [outcome?, hmade, List.count_append, hnotes, hnone]

/-- A turn that has come to an end is over. -/
theorem Showing.Undergoes.concluded {h : Handler} {slot : Slot} {d : Delivery} {told : List Note}
    {course : Plan.Ending × Tally × Scene σ} (hslot : slot.delivery = some d)
    (htraces : (Plan.dispatch h.queue d slot.failed).Traces told course.1)
    (hended : (h.conclude d course).result ≠ .waiting) (crashes : Bool) :
    (Showing.mk h slot ((h.conclude d course).result.letGo crashes)).Undergoes
      (told ++ course.1.notes d) := by
  have hresult := h.result_conclude d course
  cases houtcome : course.1.outcome? with
  | none =>
      rw [houtcome] at hresult
      exact absurd hresult hended
  | some outcome =>
      rw [houtcome] at hresult
      refine .reported hslot htraces houtcome ?_
      rw [Handled.made?_letGo, hresult]
      rfl

namespace Note

/-- Whether a send has been made. -/
def asksSend : Note → Bool
  | asked (.send _) => true
  | _ => false

/-- The call that has been made, if it is no send. -/
def askedService? : Note → Option Call
  | asked (.send _) => none
  | asked c => some c
  | _ => none

/-- Whether this is noted of a delivery that can no longer have to wait. -/
def settled : Note → Bool
  | logged (.endOfBatch ..) | asked (.send _) => false
  | _ => true

/-- Whether this is noted in the journal of a delivery that can no longer have to wait. -/
def onRecord (x : Note) : Bool := x.inJournal && x.settled

end Note

theorem count_eq_of_settled {told more : List Note} {x : Note} (hx : x.settled)
    (h : told.filter Note.settled = more.filter Note.settled) : told.count x = more.count x := by
  rw [← List.count_filter hx, h, List.count_filter hx]

theorem countP_eq_of_settled {told more : List Note} {p : Note → Bool}
    (hp : ∀ x, p x → x.settled) (h : told.filter Note.settled = more.filter Note.settled) :
    told.countP p = more.countP p := by
  have hcount (l : List Note) : l.countP p = (l.filter Note.settled).countP p := by
    rw [List.countP_filter]
    refine List.countP_congr fun x _ => ?_
    simpa using hp x
  rw [hcount, h, ← hcount]

theorem filter_onRecord_eq {told more : List Note}
    (h : told.filter Note.settled = more.filter Note.settled) :
    (told.filter Note.inJournal).filter Note.onRecord = more.filter Note.onRecord := by
  have hfilter (l : List Note) :
      l.filter Note.onRecord = (l.filter Note.settled).filter Note.inJournal := by
    rw [List.filter_filter]
    rfl
  rw [List.filter_filter, ← List.filter_congr (p := Note.onRecord), hfilter, h, ← hfilter]
  intro x _
  cases hx : x.inJournal <;> simp [Note.onRecord, hx]

namespace Crew

/-- From one state of a crew to another, these turns came to an end, each with its notes. -/
structure Stretch (rules : Rules σ) (c c' : Crew σ) (closed : List (Showing × List Note)) :
    Prop where
  past : c'.past = c.past ++ closed.map Prod.fst
  undergone : ∀ v ∈ closed, v.1.Undergoes v.2
  notes : c'.scene.notes.filter Note.onRecord =
    c.scene.notes.filter Note.onRecord ++ (closed.flatMap Prod.snd).filter Note.onRecord
  /-- Every send was made by a turn that is over or in the air. -/
  sends : c'.scene.notes.countP Note.asksSend + c.air.length =
    c.scene.notes.countP Note.asksSend + (closed.flatMap Prod.snd).countP Note.asksSend +
      c'.air.length
  counters : ∀ kind, c'.tally.counter kind =
    c.tally.counter kind + UInt64.ofNat ((closed.flatMap Prod.snd).countP (Note.counts kind))
  rollbacks : c'.tally.rollbacks =
    c.tally.rollbacks + UInt64.ofNat ((closed.flatMap Prod.snd).count .countedRollback)
  failures : rules = .keepFailures → ∀ m ch, c'.scene.books.failures m ch =
    c.scene.books.failures m ch +
      UInt32.ofNat ((closed.flatMap Prod.snd).count (.edited (.countFailure m ch)))

namespace Stretch

variable {rules : Rules σ} {c c' c'' : Crew σ} {closed later : List (Showing × List Note)}

theorem refl (rules : Rules σ) (c : Crew σ) : Stretch rules c c [] where
  past := by simp
  undergone := by simp
  notes := by simp
  sends := by simp
  counters := by simp
  rollbacks := by simp
  failures _ _ _ := by simp

theorem trans (h : Stretch rules c c' closed) (h' : Stretch rules c' c'' later) :
    Stretch rules c c'' (closed ++ later) where
  past := by rw [h'.past, h.past, List.map_append, List.append_assoc]
  undergone v hv := (List.mem_append.mp hv).elim (h.undergone v) (h'.undergone v)
  notes := by rw [h'.notes, h.notes, List.flatMap_append, List.filter_append, List.append_assoc]
  sends := by
    have hsends := h.sends
    have hsends' := h'.sends
    rw [List.flatMap_append, List.countP_append]
    omega
  counters kind := by
    rw [h'.counters, h.counters, List.flatMap_append, List.countP_append, UInt64.ofNat_add,
      UInt64.add_assoc]
  rollbacks := by
    rw [h'.rollbacks, h.rollbacks, List.flatMap_append, List.count_append, UInt64.ofNat_add,
      UInt64.add_assoc]
  failures hrules m ch := by
    rw [h'.failures hrules, h.failures hrules, List.flatMap_append, List.count_append,
      UInt32.ofNat_add, UInt32.add_assoc]

end Stretch

/-- What holds of the notes of each turn, and goes on to hold when notes are put together, holds of
all notes. -/
theorem notes_closed {p : List Note → Prop} (hnil : p [])
    (happend : ∀ {told more}, p told → p more → p (told ++ more))
    {closed : List (Showing × List Note)} (h : ∀ v ∈ closed, p v.2) :
    p (closed.flatMap Prod.snd) := by
  induction closed with
  | nil => exact hnil
  | cons v closed ih =>
      exact happend (h v List.mem_cons_self) (ih fun w hw => h w (List.mem_cons_of_mem _ hw))

/-- The counters of one handler, and of the others. -/
theorem tally_split {c : Crew σ} {place : Nat} {h : Handler}
    (hplace : c.handlers[place]? = some h) :
    ∃ others, c.tally = h.tally + others ∧ ∀ h' : Handler,
      Tally.total ((c.handlers.set place h').map (·.tally)) = h'.tally + others := by
  simp only [tally, Tally.total_eq_sum]
  generalize c.handlers = handlers at hplace
  induction handlers generalizing place with
  | nil => simp at hplace
  | cons first handlers ih =>
      cases place with
      | zero =>
          obtain rfl : first = h := by simpa using hplace
          exact ⟨(handlers.map (·.tally)).sum, by simp, fun h' => by simp⟩
      | succ place =>
          obtain ⟨others, hsum, hset⟩ := ih (by simpa using hplace)
          refine ⟨first.tally + others, ?_, fun h' => ?_⟩
          · rw [List.map_cons, List.sum_cons, hsum, add_left_comm]
          · rw [List.set_cons_succ, List.map_cons, List.sum_cons, hset, add_left_comm]

section Steps

variable {rules : Rules σ} {c : Crew σ} {place : Nat} {h : Handler} {e : Environment σ}

/-- A turn of one handler ends some turn, or none. -/
theorem Stretch.turned {turn : Turn σ} {told : List Note} {closed : List (Showing × List Note)}
    {air : List (Nat × Suspended)} (hplace : c.handlers[place]? = some h) (he : rules.callees e)
    (hnoted : Scene.Noted e h.tally c.scene told turn.handler.tally turn.scene)
    (hundergone : ∀ v ∈ closed, v.1.Undergoes v.2)
    (hsettled : told.filter Note.settled = (closed.flatMap Prod.snd).filter Note.settled)
    (hsends : told.countP Note.asksSend + c.air.length =
      (closed.flatMap Prod.snd).countP Note.asksSend + air.length) :
    Stretch rules c (c.after place turn (c.past ++ closed.map Prod.fst) air) closed := by
  obtain ⟨others, hbefore, hafter⟩ := c.tally_split hplace
  have htally : (c.after place turn (c.past ++ closed.map Prod.fst) air).tally =
      turn.handler.tally + others := hafter turn.handler
  refine ⟨rfl, hundergone, ?_, ?_, fun kind => ?_, ?_, fun hrules m ch => ?_⟩
  · rw [after, hnoted.notes, List.filter_append, filter_onRecord_eq hsettled]
  · have hjournal : (told.filter Note.inJournal).countP Note.asksSend =
        told.countP Note.asksSend := by
      rw [List.countP_filter]
      refine List.countP_congr fun x _ => ?_
      cases x <;> simp [Note.asksSend, Note.inJournal]
    rw [after, hnoted.notes, List.countP_append, hjournal]
    change _ = _ + _ + air.length
    omega
  · have hcount := countP_eq_of_settled (p := Note.counts kind) (fun x hx => by
      cases x with
      | countedOutcome outcome => rfl
      | _ => cases hx) hsettled
    rw [htally, hbefore, Tally.counter_add, Tally.counter_add, hnoted.counters, hcount]
    exact add_right_comm _ _ _
  · rw [htally, hbefore, Tally.rollbacks_add, Tally.rollbacks_add, hnoted.rollbacks,
      count_eq_of_settled rfl hsettled]
    exact add_right_comm _ _ _
  · subst hrules
    rw [after, hnoted.failures he, count_eq_of_settled rfl hsettled]

/-- Turns in the air wait for their sends. -/
def Pending (c : Crew σ) : Prop :=
  ∀ entry ∈ c.air, ∃ h, c.handlers[entry.1]? = some h ∧ entry.2.Awaits h.queue

/-- A turn of one handler leaves the others as they are, and its own dead letter queue. -/
theorem Pending.after (hc : c.Pending) (hplace : c.handlers[place]? = some h) {turn : Turn σ}
    (hqueue : turn.handler.queue = h.queue) (past : List Showing) {air : List (Nat × Suspended)}
    (hair : ∀ entry ∈ air, entry ∈ c.air ∨ entry.1 = place ∧ entry.2.Awaits h.queue) :
    (c.after place turn past air).Pending := by
  intro entry hentry
  have hlength : place < c.handlers.length := (List.getElem?_eq_some_iff.mp hplace).1
  by_cases hp : entry.1 = place
  · refine ⟨turn.handler, ?_, ?_⟩
    · rw [hp]
      exact List.getElem?_set_self hlength
    · rw [hqueue]
      rcases hair entry hentry with hold | ⟨-, hnew⟩
      · obtain ⟨h', hplace', hwaits⟩ := hc entry hold
        rw [hp, hplace] at hplace'
        cases hplace'
        exact hwaits
      · exact hnew
  · rcases hair entry hentry with hold | ⟨hnew, -⟩
    · obtain ⟨h', hplace', hwaits⟩ := hc entry hold
      refine ⟨h', ?_, hwaits⟩
      rw [Crew.after, List.getElem?_set_ne (Ne.symm hp), hplace']
    · exact absurd hnew hp

theorem filter_settled_batchNotes (h : Handler) (sequence : Nat) (last : Bool) :
    (h.batchNotes sequence last).filter Note.settled = [] := by
  cases last <;> rfl

theorem countP_asksSend_batchNotes (h : Handler) (sequence : Nat) (last : Bool) :
    (h.batchNotes sequence last).countP Note.asksSend = 0 := by
  cases last <;> rfl

theorem Stretch.shown (hplace : c.handlers[place]? = some h) (he : rules.callees e) (slot : Slot)
    (sequence : Nat) (last crashes : Bool)
    (hresult : (h.handle e slot sequence last c.scene).result ≠ .waiting) :
    ∃ told, Stretch rules c (c.after place (h.handle e slot sequence last c.scene)
      (c.past ++ [⟨h, slot, (h.handle e slot sequence last c.scene).result.letGo crashes⟩]) c.air)
      [(⟨h, slot, (h.handle e slot sequence last c.scene).result.letGo crashes⟩, told)] := by
  cases hclaim : h.claim? slot with
  | none =>
      rw [Handler.handle_of_foreign hclaim]
      have hclosed : ∀ v ∈ [((⟨h, slot, .foreign⟩ : Showing), ([] : List Note))],
          v.1.Undergoes v.2 := by
        simpa using Showing.Undergoes.foreign rfl
      refine ⟨[], .turned hplace he (h.noted_see e sequence last c.scene) hclosed ?_ ?_⟩
      · simp [filter_settled_batchNotes]
      · simp [countP_asksSend_batchNotes]
  | some d =>
      obtain ⟨hslot, -⟩ := Handler.claim?_eq_some_iff.mp hclaim
      obtain ⟨told, htraces, hnoted⟩ := h.noted_course e d slot.failed sequence last c.scene
      have hconclude := h.noted_conclude e d (h.course e d slot.failed sequence last c.scene)
      rw [Handler.handle_of_claim hclaim] at hresult ⊢
      generalize h.course e d slot.failed sequence last c.scene = course at *
      have hclosed : ∀ v ∈ [((⟨h, slot, (h.conclude d course).result.letGo crashes⟩ : Showing),
          told ++ course.1.notes d)], v.1.Undergoes v.2 := by
        simpa using Showing.Undergoes.concluded hslot htraces hresult crashes
      refine ⟨_, .turned hplace he (hnoted.trans hconclude) hclosed ?_ ?_⟩
      · simp [filter_settled_batchNotes]
      · simp [countP_asksSend_batchNotes]

theorem Stretch.waits (hplace : c.handlers[place]? = some h) (he : rules.callees e) {slot : Slot}
    {sequence : Nat} {last : Bool} {d : Delivery} {mark : Nat}
    {rest : Except SendFailure Unit → Plan} {t : Tally} {s : Scene σ}
    (hclaim : h.claim? slot = some d)
    (hcourse : h.course e d slot.failed sequence last c.scene =
      (.waiting (.send d) mark rest, t, s)) :
    (⟨h, slot, d, mark, rest⟩ : Suspended).Awaits h.queue ∧
      Stretch rules c (c.after place (h.conclude d (.waiting (.send d) mark rest, t, s)) c.past
        (c.air ++ [(place, ⟨h, slot, d, mark, rest⟩)])) [] := by
  obtain ⟨hslot, -⟩ := Handler.claim?_eq_some_iff.mp hclaim
  obtain ⟨told, htraces, hnoted⟩ := h.noted_course e d slot.failed sequence last c.scene
  rw [hcourse] at htraces hnoted
  obtain rfl := htraces.delivering.eq_of_waiting rfl
  refine ⟨⟨hslot, htraces⟩, ?_⟩
  have hclosed : ∀ v ∈ ([] : List (Showing × List Note)), v.1.Undergoes v.2 := by simp
  have hstretch : Stretch rules c (c.after place (h.conclude d (.waiting (.send d) mark rest, t, s))
      (c.past ++ []) (c.air ++ [(place, ⟨h, slot, d, mark, rest⟩)])) [] := by
    refine .turned hplace he hnoted hclosed ?_ ?_
    · simp [filter_settled_batchNotes, Note.settled]
    · simp [countP_asksSend_batchNotes, Note.asksSend, Nat.add_comm]
  rwa [List.append_nil] at hstretch

theorem Stretch.resumed (hplace : c.handlers[place]? = some h) (he : rules.callees e)
    {before after : List (Nat × Suspended)} {x : Suspended}
    (hair : c.air = before ++ (place, x) :: after) (hx : x.Awaits h.queue)
    {result : Except Crash (Except SendFailure Unit)} {s : Scene σ}
    (hlate : c.scene.callLate e (.send x.delivery) x.mark = some (result, s)) (crashes : Bool) :
    ∃ told, Stretch rules c (c.after place ({ x with handler := h }.resume e result s)
      (c.past ++ [⟨h, x.slot, ({ x with handler := h }.resume e result s).result.letGo crashes⟩])
      (before ++ after))
      [(⟨h, x.slot, ({ x with handler := h }.resume e result s).result.letGo crashes⟩, told)] := by
  obtain ⟨hended, told, htraces, hnoted⟩ :=
    (⟨h, x.slot, x.delivery, x.mark, x.rest⟩ : Suspended).noted_course hx hlate
  have hconclude := h.noted_conclude e x.delivery
    (({ x with handler := h } : Suspended).course e result s)
  have hresume : ({ x with handler := h } : Suspended).resume e result s = h.conclude x.delivery
      (({ x with handler := h } : Suspended).course e result s) := rfl
  rw [hresume]
  generalize ({ x with handler := h } : Suspended).course e result s = course at *
  have hresult : (h.conclude x.delivery course).result ≠ .waiting := by
    rw [h.result_conclude]
    cases houtcome : course.1.outcome? with
    | none => exact absurd houtcome hended
    | some outcome => simp
  have hclosed : ∀ v ∈
      [((⟨h, x.slot, (h.conclude x.delivery course).result.letGo crashes⟩ : Showing),
      (.asked (.send x.delivery) :: told) ++ course.1.notes x.delivery)], v.1.Undergoes v.2 := by
    simpa using Showing.Undergoes.concluded hx.1 htraces hresult crashes
  refine ⟨_, .turned hplace he (hnoted.trans hconclude) hclosed ?_ ?_⟩
  · simp [Note.settled]
  · simp [hair, Note.asksSend, List.countP_cons]
    omega

/-- Whatever happens next is told by the one turn that it ends, or by none. -/
theorem Step.stretch {c' : Crew σ} (hstep : Step rules c c') (hc : c.Pending) :
    c'.Pending ∧ ∃ closed, closed.length ≤ 1 ∧ Stretch rules c c' closed := by
  cases hstep with
  | shown place hplace he slot sequence last crashes hresult =>
      obtain ⟨t, hhandler, -⟩ := Handler.counts_handle _ _ slot sequence last c.scene
      obtain ⟨told, hstretch⟩ := Stretch.shown hplace he slot sequence last crashes hresult
      refine ⟨hc.after hplace ?_ _ fun _ hentry => .inl hentry, _, le_rfl, hstretch⟩
      rw [hhandler]
  | waits place hplace he slot sequence last hclaim hcourse =>
      obtain ⟨hwaits, hstretch⟩ := Stretch.waits hplace he hclaim hcourse
      refine ⟨hc.after hplace rfl _ fun entry hentry => ?_, [], Nat.zero_le 1, hstretch⟩
      rcases List.mem_append.mp hentry with hold | hnew
      · exact .inl hold
      · obtain rfl := List.mem_singleton.mp hnew
        exact .inr ⟨rfl, hwaits⟩
  | @resumed before _ place h x _ hair hplace he _ _ crashes hlate =>
      obtain ⟨h', hplace', hwaits⟩ := hc (place, x) (by simp [hair])
      rw [hplace] at hplace'
      cases hplace'
      obtain ⟨told, hstretch⟩ := Stretch.resumed hplace he hair hwaits hlate crashes
      refine ⟨hc.after hplace (h.queue_conclude _ _) _ fun entry hentry => .inl ?_, _, le_rfl,
        hstretch⟩
      rw [hair]
      rcases List.mem_append.mp hentry with hentry | hentry <;> simp [hentry]
  | meanwhile site hsite =>
      refine ⟨hc, [], Nat.zero_le 1, ?_⟩
      refine ⟨by simp, by simp, by simp, by simp, by simp [tally], by simp [tally], ?_⟩
      rintro rfl m ch
      exact (hsite m ch).trans (by simp)

end Steps

/-- Whatever has happened is told by the turns that are over. -/
theorem Run.stretch {rules : Rules σ} {c c' : Crew σ} (hrun : Run rules c c') (hc : c.Pending) :
    c'.Pending ∧ ∃ closed, Stretch rules c c' closed := by
  induction hrun with
  | refl => exact ⟨hc, [], .refl rules c⟩
  | tail _ hstep ih =>
      obtain ⟨hpending, closed, hstretch⟩ := ih
      obtain ⟨hpending', later, -, hlater⟩ := hstep.stretch hpending
      exact ⟨hpending', _, hstretch.trans hlater⟩

/-! ## Since the opening -/

section Opening

variable (posts : List (Nat × Nat × String)) (site : Site σ)

@[simp] theorem notes_opening : (opening posts site).scene.notes = [] := rfl

@[simp] theorem past_opening : (opening posts site).past = [] := rfl

@[simp] theorem air_opening : (opening posts site).air = [] := rfl

@[simp] theorem tally_opening : (opening posts site).tally = 0 := by
  rw [tally, Tally.total_eq_sum]
  refine List.sum_eq_zero fun t ht => ?_
  obtain ⟨h, hh, rfl⟩ := List.mem_map.mp ht
  obtain ⟨post, -, rfl⟩ := List.mem_map.mp hh
  rfl

end Opening

variable {rules : Rules σ} {posts : List (Nat × Nat × String)} {site : Site σ} {c : Crew σ}

/-- Everything that a crew has done is told by the turns that are over. -/
theorem Run.closed (hrun : Run rules (opening posts site) c) :
    ∃ closed, Stretch rules (opening posts site) c closed :=
  (hrun.stretch (by simp [Pending])).2

namespace Stretch

variable {closed : List (Showing × List Note)}

/-- What is read off the record of a crew is read off the turns that are over. -/
theorem filterMap {α : Type} (h : Stretch rules (opening posts site) c closed)
    {f : Note → Option α} (hf : ∀ x, x.onRecord = false → f x = none) :
    c.scene.notes.filterMap f = (closed.flatMap Prod.snd).filterMap f := by
  have hrecord (l : List Note) : l.filterMap f = (l.filter Note.onRecord).filterMap f := by
    rw [List.filterMap_filter]
    refine List.filterMap_congr fun x _ => ?_
    cases hx : x.onRecord with
    | true => rfl
    | false => exact hf x hx
  rw [hrecord, h.notes, hrecord (closed.flatMap Prod.snd)]
  simp

theorem countP (h : Stretch rules (opening posts site) c closed) {p : Note → Bool}
    (hp : ∀ x, x.onRecord = false → p x = false) :
    c.scene.notes.countP p = (closed.flatMap Prod.snd).countP p := by
  have hrecord (l : List Note) : l.countP p = (l.filter Note.onRecord).countP p := by
    rw [List.countP_filter]
    refine List.countP_congr fun x _ => ?_
    cases hx : x.onRecord with
    | true => simp
    | false => simp [hp x hx]
  rw [hrecord, h.notes, hrecord (closed.flatMap Prod.snd)]
  simp

theorem returns (h : Stretch rules (opening posts site) c closed) :
    c.scene.returns = (closed.flatMap Prod.snd).filterMap Note.returned? := by
  rw [Scene.returns_eq]
  refine h.filterMap fun x hx => ?_
  cases x with
  | answered => cases hx
  | _ => rfl

/-- Every call that is no send was made by a turn that is over. -/
theorem count_calls (h : Stretch rules (opening posts site) c closed) {call : Call}
    (hcall : call.send? = none) :
    c.scene.calls.count call = (closed.flatMap Prod.snd).count (.asked call) := by
  rw [Scene.calls_eq, Note.count_asked, List.count_eq_countP, List.count_eq_countP]
  have hrecord : (Note.asked call).onRecord = true := by
    cases call with
    | send => cases hcall
    | _ => rfl
  refine h.countP fun x hx => ?_
  simp only [beq_eq_false_iff_ne]
  rintro rfl
  simp [hrecord] at hx

/-- Apart from the sends in the air, every call was made by a turn that is over. -/
theorem length_calls (h : Stretch rules (opening posts site) c closed) :
    c.scene.calls.length = ((closed.flatMap Prod.snd).filterMap Note.asked?).length +
      c.air.length := by
  have hsplit (l : List Note) : (l.filterMap Note.asked?).length =
      l.countP Note.asksSend + (l.filterMap Note.askedService?).length := by
    induction l with
    | nil => rfl
    | cons x l ih =>
        rw [List.filterMap_cons, List.filterMap_cons, List.countP_cons]
        rcases x with _ | _ | _ | _ | ⟨_ | _ | _ | _ | _⟩ | _ <;>
          simp only [Note.asksSend, Note.asked?, Note.askedService?, List.length_cons, ih,
            if_true, Bool.false_eq_true, if_false] <;> omega
  have hservices := h.filterMap (f := Note.askedService?) (by
    rintro (_ | _ | _ | _ | ⟨_ | _ | _ | _ | _⟩ | _) hx <;> first | rfl | cases hx)
  have hsends := h.sends
  simp only [notes_opening, air_opening, List.countP_nil, List.length_nil] at hsends
  rw [Scene.calls_eq, hsplit, hservices, hsplit (closed.flatMap Prod.snd)]
  omega

end Stretch

/-- The two handlers of a rehearsed shift, before they are shown anything. -/
def Rehearsal.start : Crew Scripted.Cast :=
  .opening [(0, 2, "dead"), (1, 2, "grave")] Shift.Rehearsal.opening.toSite

end Crew

end ShardedDelivery
