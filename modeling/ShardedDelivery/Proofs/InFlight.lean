import Mathlib.Data.List.Perm.Basic
import Mathlib.Data.List.Nodup
import ShardedDelivery.Proofs.Rollback
import ShardedDelivery.Proofs.Shift

/-! # Two books on the same flight

That a message is in flight on a subscription is written down twice: the message is scheduled for
the channel, and the subscription has the message's id in flight. Whatever happens to deliveries,
the one is never true without the other. -/

namespace ShardedDelivery

variable {σ : Type}

/-- Messages and subscriptions that can be told apart by their ids and by their channels. -/
structure Parties where
  messages : List Message
  subscriptions : List Subscription
  ids_nodup : (messages.map (·.id)).Nodup
  channels_nodup : (subscriptions.map (·.channel)).Nodup

/-- A delivery of one of the messages to one of the subscriptions. -/
structure Parties.Joins (p : Parties) (d : Delivery) : Prop where
  message : d.message ∈ p.messages
  subscription : d.subscription ∈ p.subscriptions

namespace Books

/-- Both books tell the same about the parties, and nothing else is in flight. -/
structure Balanced (b : Books) (p : Parties) : Prop where
  agree : ∀ m ∈ p.messages, ∀ s ∈ p.subscriptions, s.channel ∈ b.scheduled m ↔ m.id ∈ b.sent s
  known : ∀ s ∈ p.subscriptions, ∀ id ∈ b.sent s, ∃ m ∈ p.messages, m.id = id

variable {b b' : Books} {p : Parties} {d : Delivery} {m m' : Message} {s s' : Subscription}
  {c : ChannelId} {id : MessageId}

theorem mem_scheduled_inFlight :
    c ∈ (b.applyAll (Edit.inFlight m s)).scheduled m' ↔
      m' = m ∧ c = s.channel ∨ c ∈ b.scheduled m' := by
  simp [applyAll, Edit.inFlight, mem_scheduled_apply, eq_comm]

theorem mem_sent_inFlight :
    id ∈ (b.applyAll (Edit.inFlight m s)).sent s' ↔ s' = s ∧ id = m.id ∨ id ∈ b.sent s' := by
  simp [applyAll, Edit.inFlight, mem_sent_apply, eq_comm]

/-- A message and a subscription are those of a delivery if the channel and the id are. -/
theorem pair_iff (hm : m ∈ p.messages) (hs : s ∈ p.subscriptions) (hd : p.Joins d) :
    m = d.message ∧ s.channel = d.subscription.channel ↔
      s = d.subscription ∧ m.id = d.message.id := by
  constructor
  · rintro ⟨rfl, hc⟩
    exact ⟨List.inj_on_of_nodup_map p.channels_nodup hs hd.subscription hc, rfl⟩
  · rintro ⟨rfl, hid⟩
    exact ⟨List.inj_on_of_nodup_map p.ids_nodup hm hd.message hid, rfl⟩

namespace Balanced

theorem of_empty (hm : ∀ m ∈ p.messages, ∀ c, c ∉ b.scheduled m)
    (hs : ∀ s ∈ p.subscriptions, ∀ id, id ∉ b.sent s) : b.Balanced p where
  agree m hm' s hs' := iff_of_false (hm m hm' _) (hs s hs' _)
  known s hs' id hid := absurd hid (hs s hs' id)

theorem sameFlight (h : b.Balanced p) (hb : b.SameFlight b') : b'.Balanced p where
  agree m hm s hs := by rw [hb.scheduled, hb.sent, h.agree m hm s hs]
  known s hs id hid := h.known s hs id ((hb.sent s id).mp hid)

theorem inFlight (h : b.Balanced p) (hd : p.Joins d) :
    (b.applyAll (Edit.inFlight d.message d.subscription)).Balanced p where
  agree m hm s hs := by
    rw [mem_scheduled_inFlight, mem_sent_inFlight, pair_iff hm hs hd, h.agree m hm s hs]
  known s hs id hid := by
    rcases mem_sent_inFlight.mp hid with ⟨-, rfl⟩ | hid
    · exact ⟨d.message, hd.message, rfl⟩
    · exact h.known s hs id hid

theorem rollback (h : b.Balanced p) (hd : p.Joins d) :
    (b.applyAll (Edit.rollback d.message d.subscription)).Balanced p where
  agree m hm s hs := by
    rw [mem_scheduled_rollback, mem_sent_rollback, pair_iff hm hs hd, h.agree m hm s hs]
  known s hs id hid := h.known s hs id (mem_sent_rollback.mp hid).1

/-- The ids in flight on a subscription are those of the messages scheduled for its channel. -/
theorem perm_sent (h : b.Balanced p) (hs : s ∈ p.subscriptions) :
    (b.sent s).items.Perm ((p.messages.filter (s.channel ∈ b.scheduled ·)).map (·.id)) := by
  have hsublist := (List.filter_sublist (p := fun m => decide (s.channel ∈ b.scheduled m))
    (l := p.messages)).map (·.id)
  rw [List.perm_ext_iff_of_nodup (b.sent s).nodup (p.ids_nodup.sublist hsublist)]
  intro id
  rw [← Roster.mem_def, List.mem_map]
  constructor
  · intro hid
    obtain ⟨m, hm, rfl⟩ := h.known s hs id hid
    exact ⟨m, by simpa [hm] using (h.agree m hm s hs).mpr hid, rfl⟩
  · rintro ⟨m, hm, rfl⟩
    obtain ⟨hm, hscheduled⟩ := List.mem_filter.mp hm
    exact (h.agree m hm s hs).mp (of_decide_eq_true hscheduled)

theorem size_sent (h : b.Balanced p) (hs : s ∈ p.subscriptions) :
    (b.sent s).size = (p.messages.filter (s.channel ∈ b.scheduled ·)).length := by
  rw [Roster.size, (h.perm_sent hs).length_eq, List.length_map]

end Balanced

end Books

/-! ## What a turn does to the books -/

/-- Flags apart, the books are as they were, or a delivery was taken back. -/
def Books.KeptOrBack (b : Books) (d : Delivery) (b' : Books) : Prop :=
  b.SameFlight b' ∨ (b.applyAll (Edit.rollback d.message d.subscription)).SameFlight b'

theorem Books.Balanced.keptOrBack {b b' : Books} {p : Parties} {d : Delivery}
    (h : b.Balanced p) (hd : p.Joins d) (hb : b.KeptOrBack d b') : b'.Balanced p := by
  rcases hb with hb | hb
  · exact h.sameFlight hb
  · exact (h.rollback hd).sameFlight hb

namespace Plan

variable {e : Environment σ} {queue : String} {d : Delivery} {t : Tally} {s : Scene σ}

theorem Goes.keptOrBack {course : Ending × Tally × Scene σ} (h : Goes e queue d t s course)
    (hdiscreet : e.Discreet) : s.books.KeptOrBack d course.2.2.books :=
  (h.flight hdiscreet).imp (·.flight) (·.flight)

/-- The reply to a send settles whether the delivery is taken back. -/
theorem keptOrBack_afterSend (hdiscreet : e.Discreet) (queue : String) (d : Delivery)
    (reply : Except SendFailure Unit) (t : Tally) (s : Scene σ) :
    s.books.KeptOrBack d ((afterSend queue d reply).run e t s).2.2.books := by
  have hback {rest : Plan} (hrest : rest.Mends d) (line : Line) :
      s.books.KeptOrBack d ((log line (rollback d rest)).run e t s).2.2.books :=
    .inr (Coasts.flight hrest hdiscreet t.countRollback ((s.log line).takeBack d)).2
  cases reply with
  | ok _ => exact .inl (Coasts.flight reports_delivered hdiscreet t s).2
  | error failure =>
      cases failure with
      | ruleViolation reason => exact hback mends_deadLetter _
      | transient reason => exact hback mends_recover _
      | unexpected reason => exact .inl (.refl _)

end Plan

namespace Handler

variable {h : Handler} {e : Environment σ} {slot : Slot} {d : Delivery} {s : Scene σ}

theorem keptOrBack_course (hdiscreet : e.Discreet) (d : Delivery) (failed : Bool)
    (sequence : Nat) (last : Bool) (s : Scene σ) :
    s.books.KeptOrBack d (h.course e d failed sequence last s).2.2.books := by
  have hgoes := Plan.goes_dispatch e h.queue d failed h.tally.countSeen.countOwned
    (h.see sequence last s).2
  have hturn := hgoes.keptOrBack hdiscreet
  rwa [h.toSite_see] at hturn

/-- A handler that is shown a slot takes back at most the delivery that is in it. -/
theorem keptOrBack_handle (hdiscreet : e.Discreet) (slot : Slot) (sequence : Nat) (last : Bool)
    (s : Scene σ) :
    s.books = (h.handle e slot sequence last s).scene.books ∨ ∃ d, slot.delivery = some d ∧
      s.books.KeptOrBack d (h.handle e slot sequence last s).scene.books := by
  cases hclaim : h.claim? slot with
  | none =>
      left
      rw [handle_of_foreign hclaim, toSite_see]
  | some d =>
      refine .inr ⟨d, (claim?_eq_some_iff.mp hclaim).1, ?_⟩
      rw [handle_of_claim hclaim, toSite_conclude]
      exact keptOrBack_course hdiscreet d slot.failed sequence last s

end Handler

/-! ## Runs -/

/-- A delivery goes in flight. -/
def Scene.putInFlight (s : Scene σ) (d : Delivery) : Scene σ :=
  s.moveTo { s.toSite with books := s.books.applyAll (Edit.inFlight d.message d.subscription) }

/-- What may become of a scene, and the turns that wait for their sends: deliveries of the parties
go in flight and are taken back, any handler is shown any slot between callees that do not touch
what is in flight, and a turn that waits is resumed later or given up. -/
inductive Traffic (p : Parties) (start : Scene σ) : List Suspended → Scene σ → Prop where
  | start : Traffic p start [] start
  | marked {air s d} (hd : p.Joins d) : Traffic p start air s →
      Traffic p start air (s.putInFlight d)
  | takenBack {air s d} (hd : p.Joins d) : Traffic p start air s →
      Traffic p start air (s.takeBack d)
  | shown {air s} (h : Handler) {e : Environment σ} (he : e.Discreet) (slot : Slot)
      (hslot : ∀ d, slot.delivery = some d → p.Joins d) (sequence : Nat) (last : Bool) :
      Traffic p start air s → Traffic p start air (h.handle e slot sequence last s).scene
  | waits {air s} (h : Handler) {e : Environment σ} (he : e.Discreet) (slot : Slot)
      (sequence : Nat) (last : Bool) {d : Delivery} (hd : p.Joins d) {mark rest t s'} :
      Traffic p start air s → h.claim? slot = some d →
      h.course e d slot.failed sequence last s = (.waiting (.send d) mark rest, t, s') →
      Traffic p start (air ++ [⟨{ h with tally := t }, slot, d, mark, rest⟩]) s'
  | resumed {s} (before : List Suspended) {after} {x : Suspended} {e : Environment σ}
      (he : e.Discreet) {result s'} : Traffic p start (before ++ x :: after) s →
      s.callLate e (.send x.delivery) x.mark = some (result, s') →
      s.books.SameFlight s'.books →
      Traffic p start (before ++ after) (x.resume e result s').scene
  | meanwhile {air s} (site : Site σ) : Traffic p start air s →
      s.books.SameFlight site.books → Traffic p start air (s.moveTo site)

namespace Traffic

variable {p : Parties} {start s : Scene σ} {air : List Suspended}

/-- The turns that wait are about deliveries of the parties. -/
theorem pending (h : Traffic p start air s) :
    ∀ x ∈ air, p.Joins x.delivery ∧ x.rest = Plan.afterSend x.handler.queue x.delivery := by
  induction h with
  | start => simp
  | marked _ _ ih | takenBack _ _ ih | shown _ _ _ _ _ _ _ ih | meanwhile _ _ _ ih => exact ih
  | @waits air s h e he slot sequence last d hd mark rest t s' _ hclaim hcourse ih =>
      have hgoes := Plan.goes_dispatch e h.queue d slot.failed h.tally.countSeen.countOwned
        (h.see sequence last s).2
      rw [Handler.course] at hcourse
      rw [hcourse] at hgoes
      intro x hx
      rcases List.mem_append.mp hx with hx | hx
      · exact ih x hx
      · obtain rfl := List.mem_singleton.mp hx
        exact ⟨hd, hgoes.of_waiting.1⟩
  | resumed before he _ hlate hflight ih =>
      intro y hy
      apply ih y
      rcases List.mem_append.mp hy with hy | hy <;> simp [hy]

theorem balanced (h : Traffic p start air s) (hstart : start.books.Balanced p) :
    s.books.Balanced p := by
  induction h with
  | start => exact hstart
  | marked hd _ ih => exact ih.inFlight hd
  | takenBack hd _ ih => exact ih.rollback hd
  | shown h he slot hslot sequence last _ ih =>
      rcases h.keptOrBack_handle he slot sequence last _ with hsame | ⟨d, hd, hturn⟩
      · rwa [← hsame]
      · exact ih.keptOrBack (hslot d hd) hturn
  | @waits air s h e he slot sequence last d hd mark rest t s' _ hclaim hcourse ih =>
      have hturn := h.keptOrBack_course he d slot.failed sequence last s
      rw [hcourse] at hturn
      exact ih.keptOrBack hd hturn
  | @resumed s before after x e he result s' htraffic hlate hflight ih =>
      obtain ⟨hd, hrest⟩ := htraffic.pending x (by simp)
      rw [Suspended.resume, Handler.toSite_conclude]
      cases result with
      | error crash => exact ih.sameFlight hflight
      | ok reply =>
          rw [Suspended.course, hrest]
          exact (ih.sameFlight hflight).keptOrBack hd
            (Plan.keptOrBack_afterSend he x.handler.queue x.delivery reply x.handler.tally s')
  | meanwhile _ _ hflight ih => exact ih.sameFlight hflight

/-- Nothing is in flight at first. From then on a message is scheduled for a subscription's
channel exactly while the subscription has its id in flight, and as many ids are in flight on the
subscription as messages are scheduled for its channel. -/
theorem books_balance (h : Traffic p start air s)
    (hscheduled : ∀ m ∈ p.messages, ∀ c, c ∉ start.books.scheduled m)
    (hsent : ∀ sub ∈ p.subscriptions, ∀ id, id ∉ start.books.sent sub) :
    (∀ m ∈ p.messages, ∀ sub ∈ p.subscriptions,
      sub.channel ∈ s.books.scheduled m ↔ m.id ∈ s.books.sent sub) ∧
      ∀ sub ∈ p.subscriptions, (s.books.sent sub).size =
        (p.messages.filter (sub.channel ∈ s.books.scheduled ·)).length := by
  have hbalanced := h.balanced (.of_empty hscheduled hsent)
  exact ⟨hbalanced.agree, fun sub hsub => hbalanced.size_sent hsub⟩

open Shift.Rehearsal

/-- Two orders and a bill, with the subscriptions that they are for. -/
def Rehearsal.parties : Parties where
  messages := [(order 1).message, (order 2).message, bill.message]
  subscriptions := [orders, bills]
  ids_nodup := by decide
  channels_nodup := by decide

/-- While a bill waits for its permit, the send of one order breaks and the order is taken back.
The bill is refused in the end; the other order is still in flight. -/
theorem books_balance_rehearsal : ∃ s, Traffic Rehearsal.parties opening [] s ∧
    s.calls = [.send bill, .send (order 1), .requeue (order 1).message, .count .requeued,
      .moveToDeadLetters bill.message "bills" "grave", .trace .deadLettered bill.message,
      .count .deadLettered] ∧
    (s.books.sent orders).items = [⟨2⟩] ∧ orders.channel ∈ s.books.scheduled (order 2).message ∧
    Rehearsal.parties.messages.filter (bills.channel ∈ s.books.scheduled ·) = [] := by
  have he : (Scripted.environment true).Discreet := Scripted.discreet true
  have traffic : Traffic Rehearsal.parties opening [] opening := .start
  have traffic := traffic.marked (d := order 1) ⟨by decide, by decide⟩
  have traffic := traffic.marked (d := order 2) ⟨by decide, by decide⟩
  have traffic := traffic.marked (d := bill) ⟨by decide, by decide⟩
  have traffic := traffic.waits evening he (.holding bill false) 0 true
    ⟨by decide, by decide⟩ rfl rfl
  have traffic := traffic.shown morning he (.holding (order 1) false)
    (by rintro _ ⟨⟩; exact ⟨by decide, by decide⟩) 1 true
  have traffic := traffic.meanwhile (permit _) (.refl _)
  have traffic := traffic.resumed [] he rfl (.refl _)
  obtain ⟨hagree, hsize⟩ := traffic.books_balance (fun _ _ => Roster.not_mem_empty)
    (fun _ _ => Roster.not_mem_empty)
  refine ⟨_, traffic, by decide, by decide, ?_, List.eq_nil_of_length_eq_zero ?_⟩
  · exact (hagree (order 2).message (by decide) orders (by decide)).mpr (by decide)
  · rw [← hsize bills (by decide)]
    decide

end Traffic

end ShardedDelivery
