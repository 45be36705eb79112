import ShardedDelivery.Proofs.Plan.Patience
import ShardedDelivery.Proofs.Plan.Phases
import ShardedDelivery.Proofs.Scripted

/-! # Rollbacks

A delivery that failed is taken back once, and before anything is done about it: the books say so
to every callee that requeues the message, moves it away or discards it. Nothing else that is in
flight is touched. -/

namespace ShardedDelivery

variable {σ : Type}

/-! ## What is in flight -/

/-- A change of a flag. -/
def Edit.setsFlag : Edit → Bool
  | .setStale .. | .setDisposable .. | .setActive .. => true
  | _ => false

namespace Books

/-- The same is in flight, with the same failures. Flags may differ. -/
structure SameFlight (b b' : Books) : Prop where
  scheduled : ∀ m c, c ∈ b'.scheduled m ↔ c ∈ b.scheduled m
  failures : ∀ m c, b'.failures m c = b.failures m c
  sent : ∀ s id, id ∈ b'.sent s ↔ id ∈ b.sent s

variable {b b' b'' : Books} {m m' : Message} {s s' : Subscription} {c : ChannelId} {id : MessageId}

namespace SameFlight

theorem refl (b : Books) : b.SameFlight b := ⟨fun _ _ => .rfl, fun _ _ => rfl, fun _ _ => .rfl⟩

theorem trans (h : b.SameFlight b') (h' : b'.SameFlight b'') : b.SameFlight b'' where
  scheduled m c := (h'.scheduled m c).trans (h.scheduled m c)
  failures m c := (h'.failures m c).trans (h.failures m c)
  sent s id := (h'.sent s id).trans (h.sent s id)

theorem apply (h : b.SameFlight b') (change : Edit) :
    (b.apply change).SameFlight (b'.apply change) where
  scheduled m c := by simp only [mem_scheduled_apply, h.scheduled]
  failures m c := by simp only [failures_apply, h.failures]
  sent s id := by simp only [mem_sent_apply, h.sent]

theorem applyAll (h : b.SameFlight b') (changes : List Edit) :
    (b.applyAll changes).SameFlight (b'.applyAll changes) := by
  induction changes generalizing b b' with
  | nil => exact h
  | cons change changes ih => exact ih (h.apply change)

end SameFlight

theorem SameFlight.of_setsFlag {changes : List Edit} (h : changes.all Edit.setsFlag) (b : Books) :
    b.SameFlight (b.applyAll changes) := by
  induction changes generalizing b with
  | nil => exact .refl b
  | cons change changes ih =>
      rw [List.all_cons, Bool.and_eq_true] at h
      have hchange : b.SameFlight (b.apply change) := by
        cases change with
        | setStale | setDisposable | setActive =>
            exact ⟨by simp [mem_scheduled_apply], by simp [failures_apply],
              by simp [mem_sent_apply]⟩
        | _ => exact absurd h.1 (by simp [Edit.setsFlag])
      exact hchange.trans (ih h.2 _)

/-- Only changes that set a flag change one. -/
theorem flags_apply {e : Edit} (h : e.setsFlag = false) (b : Books) :
    (∀ m, (b.apply e).isStale m = b.isStale m) ∧
      (∀ m, (b.apply e).isDisposable m = b.isDisposable m) ∧
      ∀ s, (b.apply e).isActive s = b.isActive s := by
  have hne (flag : Edit) (hflag : flag.setsFlag = true) : e ≠ flag := by
    rintro rfl
    rw [h] at hflag
    contradiction
  refine ⟨fun m => ?_, fun m => ?_, fun s => ?_⟩
  · rw [Bool.eq_iff_iff, isStale_apply]
    simp [hne (.setStale m true) rfl, hne (.setStale m false) rfl]
  · rw [Bool.eq_iff_iff, isDisposable_apply]
    simp [hne (.setDisposable m true) rfl, hne (.setDisposable m false) rfl]
  · rw [Bool.eq_iff_iff, isActive_apply]
    simp [hne (.setActive s true) rfl, hne (.setActive s false) rfl]

/-- Where no flag is set, flags are as they were. -/
theorem flags_applyAll {edits : List Edit} (h : ∀ e ∈ edits, e.setsFlag = false) (b : Books) :
    (∀ m, (b.applyAll edits).isStale m = b.isStale m) ∧
      (∀ m, (b.applyAll edits).isDisposable m = b.isDisposable m) ∧
      ∀ s, (b.applyAll edits).isActive s = b.isActive s := by
  induction edits generalizing b with
  | nil => exact ⟨fun _ => rfl, fun _ => rfl, fun _ => rfl⟩
  | cons e edits ih =>
      obtain ⟨he, hedits⟩ := List.forall_mem_cons.mp h
      obtain ⟨hstale, hdisposable, hactive⟩ := ih hedits (b.apply e)
      obtain ⟨hstale', hdisposable', hactive'⟩ := flags_apply he b
      exact ⟨fun m => (hstale m).trans (hstale' m),
        fun m => (hdisposable m).trans (hdisposable' m), fun s => (hactive s).trans (hactive' s)⟩

/-- After a rollback the message is scheduled for the same channels, except for that of the
subscription. -/
theorem mem_scheduled_rollback :
    c ∈ (b.applyAll (Edit.rollback m s)).scheduled m' ↔
      c ∈ b.scheduled m' ∧ ¬ (m' = m ∧ c = s.channel) := by
  simp [applyAll, Edit.rollback, mem_scheduled_apply, eq_comm]

theorem failures_rollback :
    (b.applyAll (Edit.rollback m s)).failures m' c =
      if m' = m ∧ c = s.channel then b.failures m' c + 1 else b.failures m' c := by
  simp [applyAll, Edit.rollback, failures_apply, eq_comm]

theorem mem_sent_rollback :
    id ∈ (b.applyAll (Edit.rollback m s)).sent s' ↔
      id ∈ b.sent s' ∧ ¬ (s' = s ∧ id = m.id) := by
  simp [applyAll, Edit.rollback, mem_sent_apply, eq_comm]

theorem setsFlag_of_mem_rollback {e : Edit} (he : e ∈ Edit.rollback m s) : e.setsFlag = false := by
  simp only [Edit.rollback, List.mem_cons, List.not_mem_nil, or_false] at he
  rcases he with rfl | rfl | rfl <;> rfl

/-- What the books hold once a delivery has been taken back. -/
structure TakesBack (b : Books) (d : Delivery) (b' : Books) : Prop where
  /-- One more failure of the message is counted on the channel. -/
  failures : b'.failures d.message d.subscription.channel =
    b.failures d.message d.subscription.channel + 1
  unscheduled : d.subscription.channel ∉ b'.scheduled d.message
  untracked : d.message.id ∉ b'.sent d.subscription
  /-- Other channels and other messages are left alone. -/
  otherPairs : ∀ m c, ¬ (m = d.message ∧ c = d.subscription.channel) →
    (c ∈ b'.scheduled m ↔ c ∈ b.scheduled m) ∧ b'.failures m c = b.failures m c
  /-- So is whatever else is in flight on any subscription. -/
  otherIds : ∀ s id, ¬ (s = d.subscription ∧ id = d.message.id) → (id ∈ b'.sent s ↔ id ∈ b.sent s)
  stale : ∀ m, b'.isStale m = b.isStale m
  disposable : ∀ m, b'.isDisposable m = b.isDisposable m
  active : ∀ s, b'.isActive s = b.isActive s

theorem takesBack_rollback (b : Books) (d : Delivery) :
    b.TakesBack d (b.applyAll (Edit.rollback d.message d.subscription)) := by
  obtain ⟨hstale, hdisposable, hactive⟩ :=
    flags_applyAll (fun _ => setsFlag_of_mem_rollback (m := d.message) (s := d.subscription)) b
  refine ⟨?_, ?_, ?_, ?_, ?_, hstale, hdisposable, hactive⟩
  · rw [failures_rollback, if_pos ⟨rfl, rfl⟩]
  · simp [mem_scheduled_rollback]
  · simp [mem_sent_rollback]
  · intro m c hother
    exact ⟨by simp [mem_scheduled_rollback, hother], by rw [failures_rollback, if_neg hother]⟩
  · intro s id hother
    simp [mem_sent_rollback, hother]

end Books

/-! ## Discreet callees

The scripted callees set flags at most, and so do callees that are waited for if nobody else
touches what is in flight meanwhile. -/

/-- Callees that leave what is in flight to others. -/
def Environment.Discreet (e : Environment σ) : Prop :=
  ∀ c (s : Site σ), s.books.SameFlight (e.answer c s).2.books

theorem Environment.Discreet.patient {e : Environment σ} (h : e.Discreet)
    {meanwhile : Delivery → Nat → Site σ → Option (Site σ)}
    (hresume : ∀ d mark s result s', e.resume d mark s = some (result, s') →
      s.books.SameFlight s'.books)
    (hmeanwhile : ∀ d mark s s', meanwhile d mark s = some s' → s.books.SameFlight s'.books) :
    (e.patient meanwhile).Discreet := by
  intro c s
  cases c with
  | send d =>
      have hleft : s.books.SameFlight (e.send d s).2.books := h (.send d) s
      rcases hsend : e.send d s with ⟨result | mark, site⟩
      all_goals rw [hsend] at hleft
      · simp only [answer, Environment.patient, hsend]
        exact hleft
      · simp only [answer, Environment.patient, hsend]
        cases hlate : (meanwhile d mark site).bind (e.resume d mark) with
        | none => exact hleft
        | some late =>
            obtain ⟨site', hsite', hlate⟩ := Option.bind_eq_some_iff.mp hlate
            exact (hleft.trans (hmeanwhile _ _ _ _ hsite')).trans (hresume _ _ _ _ _ hlate)
  | _ => exact h _ s

namespace Scripted

theorem sameFlight_play (cue : Cue) (d : Delivery) (s : Site Cast) :
    s.books.SameFlight (play cue d s).2.books := by
  have hflags : (cue.edits d).all Edit.setsFlag := by
    obtain ⟨_, marksStale, setsDisposable, deactivates, _⟩ := cue
    cases marksStale <;> cases setsDisposable <;> cases deactivates <;> rfl
  exact .of_setsFlag hflags s.books

theorem sameFlight_resume {d : Delivery} {mark : Nat} {s s' : Site Cast}
    {result : Except Crash (Except SendFailure Unit)} (h : resume d mark s = some (result, s')) :
    s.books.SameFlight s'.books := by
  obtain ⟨u, hu, hplay⟩ := Option.map_eq_some_iff.mp h
  obtain rfl : s' = (play _ d u).2 := (congrArg Prod.snd hplay).symm
  have hbooks : u.books = s.books := by
    unfold usePermit? at hu
    split at hu
    · contradiction
    · cases hu
      rfl
  rw [← hbooks]
  exact sameFlight_play _ d u

theorem discreet (listening : Bool) : (environment listening).Discreet := by
  intro c s
  cases c with
  | send d =>
      change s.books.SameFlight (send d s).2.books
      rw [send_eq]
      split
      · split
        · rename_i hresume
          have hstarted : s.books.SameFlight (started d s).books := .refl _
          exact hstarted.trans (sameFlight_resume hresume)
        · exact .refl _
      · exact sameFlight_play _ d (started d s)
  | requeue m => exact (requeue_spec listening m s).2.1 ▸ .refl _
  | moveToDeadLetters m destination queue =>
      exact (moveToDeadLetters_spec listening m destination queue s).2.1 ▸ .refl _
  | trace kind m => exact .refl _
  | count metric => exact .refl _

end Scripted

/-! ## What is done since an earlier scene -/

/-- A send came back with a failure for which the delivery is taken back. -/
def Attempt.Refuses : Attempt (Except SendFailure Unit) → Prop
  | .ended (.ok (.error failure)) => ∀ reason, failure ≠ .unexpected reason
  | _ => False

namespace Scene

variable {s s' earlier : Scene σ} {P Q : Call → Books → Prop}

/-- Every call made since an earlier scene, and the books that it found, are like this. -/
def Only (s : Scene σ) (P : Call → Books → Prop) (earlier : Scene σ) : Prop :=
  ∃ entries, s.journal = earlier.journal ++ entries ∧
    ∀ c found, .called c found ∈ entries → P c found

theorem Only.refl (P : Call → Books → Prop) (s : Scene σ) : s.Only P s := ⟨[], by simp, by simp⟩

theorem Only.trans (h : s.Only P s') (h' : s'.Only P earlier) : s.Only P earlier := by
  obtain ⟨later, hlater, hP⟩ := h
  obtain ⟨entries, hentries, hP'⟩ := h'
  refine ⟨entries ++ later, by rw [hlater, hentries, List.append_assoc], ?_⟩
  intro c found hmem
  rcases List.mem_append.mp hmem with hmem | hmem
  · exact hP' c found hmem
  · exact hP c found hmem

theorem Only.mono (h : s.Only P earlier) (hPQ : ∀ c found, P c found → Q c found) :
    s.Only Q earlier := by
  obtain ⟨entries, hentries, hP⟩ := h
  exact ⟨entries, hentries, fun c found hmem => hPQ c found (hP c found hmem)⟩

theorem Only.since (h : s.Only P earlier) {c : Call} {found : Books}
    (hmem : .called c found ∈ s.since earlier) : P c found := by
  obtain ⟨entries, hentries, hP⟩ := h
  rw [Scene.since, hentries, List.drop_left] at hmem
  exact hP c found hmem

theorem Only.note (h : s.Only P earlier) {entry : Entry}
    (hentry : ∀ c found, entry = .called c found → P c found) : (s.note entry).Only P earlier := by
  obtain ⟨entries, hentries, hP⟩ := h
  refine ⟨entries ++ [entry], by rw [Scene.note, hentries, List.append_assoc], ?_⟩
  intro c found hmem
  rcases List.mem_append.mp hmem with hmem | hmem
  · exact hP c found hmem
  · exact hentry c found (List.mem_singleton.mp hmem).symm

theorem Only.log (h : s.Only P earlier) (line : Line) : (s.log line).Only P earlier :=
  h.note (by simp)

theorem Only.called (h : s.Only P earlier) {c : Call} (hc : P c s.books) :
    (s.note (.called c s.books)).Only P earlier := by
  refine h.note ?_
  intro c' found hentry
  cases hentry
  exact hc

/-- How a call ends adds no calls. -/
theorem Only.answered {c : Call} (h : (s.note (.called c s.books)).Only P earlier)
    (result : Except Crash c.Reply) (site : Site σ) :
    (s.answered c result site).Only P earlier := by
  cases result with
  | ok reply => exact Only.note (s := (s.note (.called c s.books)).moveTo site) h (by simp)
  | error crash => exact h

/-- Nothing was removed since then, and the same is in flight. -/
structure LeavesFlight (s earlier : Scene σ) : Prop where
  only : s.Only (fun c _ => c.removes? = none) earlier
  flight : earlier.books.SameFlight s.books

/-- Since then the delivery was taken back. Nothing but its message was removed, and that after it
was taken back; nothing but the delivery was sent, and that only if it was `refused`. -/
structure TakesBack (s : Scene σ) (d : Delivery) (refused : Prop) (earlier : Scene σ) : Prop where
  only : s.Only
    (fun c found => (∀ d', c.send? = some d' → d' = d ∧ refused) ∧ ∀ m, c.removes? = some m →
      m = d.message ∧ (earlier.toSite.takeBack d).books.SameFlight found) earlier
  flight : (earlier.toSite.takeBack d).books.SameFlight s.books

end Scene

namespace Plan

variable {e : Environment σ} {queue : String} {d : Delivery} {t : Tally} {s : Scene σ}

/-- A plan that coasts makes only such calls, and leaves what is in flight as it is. -/
theorem Coasts.flight {asks : Call → Prop} {ends : Outcome → Prop} {plan : Plan}
    (h : plan.Coasts asks ends) (hdiscreet : e.Discreet) (t : Tally) (s : Scene σ) :
    (plan.run e t s).2.2.Only (fun c found => asks c ∧ s.books.SameFlight found) s ∧
      s.books.SameFlight (plan.run e t s).2.2.books := by
  induction plan generalizing s with
  | finish outcome => exact ⟨.refl _ s, .refl _⟩
  | log line rest ih =>
      obtain ⟨honly, hflight⟩ := ih h (s.log line)
      exact ⟨honly.trans ((Scene.Only.refl _ s).log line), hflight⟩
  | edit change rest ih => exact h.elim
  | countRollback rest ih => exact h.elim
  | check q rest ih => exact ih _ (h _) s
  | call c rest ih =>
      obtain ⟨hc, hrest⟩ := h
      have hleft := hdiscreet c s.toSite
      have hcalled : (s.note (.called c s.books)).Only
          (fun c found => asks c ∧ s.books.SameFlight found) s :=
        (Scene.Only.refl _ s).called ⟨hc, .refl _⟩
      rcases ha : e.answer c s.toSite with ⟨(crash | reply) | mark, site⟩
      all_goals rw [ha] at hleft
      · rw [run_call_crash ha]
        exact ⟨hcalled.answered _ site, by simpa using hleft⟩
      · rw [run_call_ok ha]
        obtain ⟨honly, hflight⟩ := ih reply (hrest reply) (s.answered c (.ok reply) site)
        rw [Scene.toSite_answered] at honly hflight
        refine ⟨(honly.mono ?_).trans (hcalled.answered _ site), hleft.trans hflight⟩
        exact fun c' found hfound => ⟨hfound.1, hleft.trans hfound.2⟩
      · rw [run_call_waiting ha]
        exact ⟨hcalled, hleft⟩

/-- What is done about a delivery that was taken back comes after that. -/
theorem Mends.takesBack {rest : Plan} (h : rest.Mends d) (hdiscreet : e.Discreet) {refused : Prop}
    (t : Tally) {s y : Scene σ}
    (honly : y.Only
      (fun c _ => (∀ d', c.send? = some d' → d' = d ∧ refused) ∧ c.removes? = none) s)
    (hflight : s.books.SameFlight y.books) :
    (rest.run e t (y.takeBack d)).2.2.TakesBack d refused s := by
  have hback : (s.takeBack d).books.SameFlight (y.takeBack d).books := hflight.applyAll _
  obtain ⟨hrest, hend⟩ := Coasts.flight h hdiscreet t (y.takeBack d)
  refine ⟨(hrest.mono ?_).trans (honly.mono ?_), hback.trans hend⟩
  · rintro c found ⟨⟨hsend, hremoves⟩, hfound⟩
    exact ⟨by simp [hsend], fun m hm => ⟨hremoves m hm, hback.trans hfound⟩⟩
  · rintro c found ⟨hsend, hremoves⟩
    exact ⟨hsend, by simp [hremoves]⟩

/-- A delivery is left in flight, or taken back because it was not sent or was refused. -/
theorem Goes.flight {course : Ending × Tally × Scene σ} (h : Goes e queue d t s course)
    (hdiscreet : e.Discreet) :
    course.2.2.LeavesFlight s ∨ course.2.2.TakesBack d (e.send d s.toSite).1.Refuses s := by
  have hleft : s.books.SameFlight (e.send d s.toSite).2.books := hdiscreet (.send d) s.toSite
  cases h with
  | untried hrest => exact .inr (hrest.takesBack hdiscreet _ (.refl _ s) (.refl _))
  | waits hsend =>
      rw [hsend] at hleft
      exact .inl ⟨(Scene.Only.refl _ s).called rfl, hleft⟩
  | crashes hsend =>
      rw [hsend] at hleft
      exact .inl ⟨((Scene.Only.refl _ s).called rfl).answered _ _, by simpa using hleft⟩
  | accepted hsend hrest =>
      rw [hsend] at hleft
      obtain ⟨honly, hflight⟩ :=
        Coasts.flight hrest hdiscreet t (s.answered (.send d) (.ok (.ok ())) _)
      rw [Scene.toSite_answered] at honly hflight
      exact .inl ⟨(honly.mono fun _ _ hfound => hfound.1.2).trans
        (((Scene.Only.refl _ s).called rfl).answered _ _), hleft.trans hflight⟩
  | unclassified hsend =>
      rw [hsend] at hleft
      exact .inl ⟨(((Scene.Only.refl _ s).called rfl).answered _ _).log _, by simpa using hleft⟩
  | refused hsend hfailure hrest =>
      rw [hsend] at hleft ⊢
      exact .inr (hrest.takesBack hdiscreet _
        ((((Scene.Only.refl _ s).called
          ⟨fun d' hd' => ⟨(Option.some.inj hd').symm, hfailure⟩, rfl⟩).answered _ _).log _)
        (by simpa using hleft))

end Plan

/-! ## Turns -/

/-- What a turn from an earlier scene does about what is in flight, by the slot that was shown. -/
structure Scene.RollsBackOnce (s : Scene σ) (e : Environment σ) (slot : Slot) (earlier : Scene σ) :
    Prop where
  /-- Whatever is requeued, moved away or discarded was taken back before, and that once. -/
  first : ∀ c m found, .called c found ∈ s.since earlier → c.removes? = some m →
    ∃ d, slot.delivery = some d ∧ m = d.message ∧
      d.subscription.channel ∉ found.scheduled m ∧ m.id ∉ found.sent d.subscription ∧
        (found.failures m d.subscription.channel).toNat =
          (earlier.books.failures m d.subscription.channel).toNat + 1
  /-- At most one failure is counted. -/
  once : ∀ d, slot.delivery = some d →
    s.books.failures d.message d.subscription.channel =
        earlier.books.failures d.message d.subscription.channel ∨
      (s.books.failures d.message d.subscription.channel).toNat =
        (earlier.books.failures d.message d.subscription.channel).toNat + 1
  /-- A send that is accepted, fails in an unexpected way, crashes or waits takes nothing back. -/
  unrefused : ∀ d found, .called (.send d) found ∈ s.since earlier →
    ¬ (e.send d earlier.toSite).1.Refuses → earlier.books.SameFlight s.books
  /-- Other channels and other messages are left alone. -/
  otherPairs : ∀ m c,
    (∀ d, slot.delivery = some d → ¬ (m = d.message ∧ c = d.subscription.channel)) →
      (c ∈ s.books.scheduled m ↔ c ∈ earlier.books.scheduled m) ∧
        s.books.failures m c = earlier.books.failures m c
  /-- So is whatever else is in flight on any subscription. -/
  otherIds : ∀ subscription id,
    (∀ d, slot.delivery = some d → ¬ (subscription = d.subscription ∧ id = d.message.id)) →
      (id ∈ s.books.sent subscription ↔ id ∈ earlier.books.sent subscription)

namespace Scene

variable {e : Environment σ} {slot : Slot} {d : Delivery} {s earlier : Scene σ}

theorem LeavesFlight.rollsBackOnce (h : s.LeavesFlight earlier) :
    s.RollsBackOnce e slot earlier where
  first := by
    intro c m found hmem hremoves
    have hnone : c.removes? = none := h.only.since hmem
    rw [hnone] at hremoves
    contradiction
  once d _ := .inl (h.flight.failures _ _)
  unrefused _ _ _ _ := h.flight
  otherPairs m c _ := ⟨h.flight.scheduled m c, h.flight.failures m c⟩
  otherIds subscription id _ := h.flight.sent subscription id

theorem TakesBack.rollsBackOnce
    (h : s.TakesBack d (e.send d earlier.toSite).1.Refuses earlier)
    (hslot : slot.delivery = some d)
    (hroom : (earlier.books.failures d.message d.subscription.channel).toNat + 1 < 2 ^ 32) :
    s.RollsBackOnce e slot earlier := by
  have hback : earlier.books.TakesBack d (earlier.toSite.takeBack d).books :=
    Books.takesBack_rollback _ d
  have hfailures {b : Books} (hb : (earlier.toSite.takeBack d).books.SameFlight b) :
      (b.failures d.message d.subscription.channel).toNat =
        (earlier.books.failures d.message d.subscription.channel).toNat + 1 := by
    rw [hb.failures, hback.failures, UInt32.toNat_add, UInt32.toNat_one]
    omega
  refine ⟨?_, ?_, ?_, ?_, ?_⟩
  · intro c m found hmem hremoves
    obtain ⟨rfl, hfound⟩ := (h.only.since hmem).2 m hremoves
    refine ⟨d, hslot, rfl, ?_, ?_, hfailures hfound⟩
    · rw [hfound.scheduled]
      exact hback.unscheduled
    · rw [hfound.sent]
      exact hback.untracked
  · intro d' hd'
    obtain rfl : d = d' := Option.some.inj (hslot.symm.trans hd')
    exact .inr (hfailures h.flight)
  · intro d' found hmem hrefuses
    obtain ⟨rfl, hrefused⟩ := (h.only.since hmem).1 d' rfl
    exact (hrefuses hrefused).elim
  · intro m c hother
    obtain ⟨hscheduled, hsame⟩ := hback.otherPairs m c (hother d hslot)
    exact ⟨(h.flight.scheduled m c).trans hscheduled, (h.flight.failures m c).trans hsame⟩
  · intro subscription id hother
    exact (h.flight.sent subscription id).trans (hback.otherIds _ _ (hother d hslot))

end Scene

namespace Handler

variable {h : Handler} {e : Environment σ} {slot : Slot} {d : Delivery} {s : Scene σ}
  {P : Call → Books → Prop}

theorem only_see (h : Handler) (sequence : Nat) (last : Bool) (s : Scene σ)
    (P : Call → Books → Prop) : (h.see sequence last s).2.Only P s := by
  unfold see
  split
  · exact (Scene.Only.refl P s).log _
  · exact .refl P s

theorem only_conclude {course : Plan.Ending × Tally × Scene σ} (hcourse : course.2.2.Only P s) :
    (h.conclude d course).scene.Only P s := by
  rcases course with ⟨_ | _ | _, t, y⟩
  · exact hcourse
  · exact hcourse.log _
  · exact hcourse

/-- What was done since the event was seen, was done in the turn. -/
theorem leavesFlight_conclude {course : Plan.Ending × Tally × Scene σ} {sequence : Nat}
    {last : Bool} (hcourse : course.2.2.LeavesFlight (h.see sequence last s).2) :
    (h.conclude d course).scene.LeavesFlight s where
  only := only_conclude (hcourse.only.trans (only_see h sequence last s _))
  flight := by
    rw [toSite_conclude, ← h.toSite_see sequence last s]
    exact hcourse.flight

theorem takesBack_conclude {course : Plan.Ending × Tally × Scene σ} {sequence : Nat}
    {last : Bool} {refused : Prop}
    (hcourse : course.2.2.TakesBack d refused (h.see sequence last s).2) :
    (h.conclude d course).scene.TakesBack d refused s where
  only := by
    rw [← h.toSite_see sequence last s]
    exact only_conclude (hcourse.only.trans (only_see h sequence last s _))
  flight := by
    rw [toSite_conclude, ← h.toSite_see sequence last s]
    exact hcourse.flight

/-- Between callees that do not touch what is in flight, a handler takes back the delivery that it
is shown at most once, always before it removes the message, and nothing else. -/
theorem rolls_back_once (h : Handler) (hdiscreet : e.Discreet) (slot : Slot) (sequence : Nat)
    (last : Bool) (s : Scene σ)
    (hroom : ∀ d, slot.delivery = some d →
      (s.books.failures d.message d.subscription.channel).toNat + 1 < 2 ^ 32) :
    (h.handle e slot sequence last s).scene.RollsBackOnce e slot s := by
  cases hclaim : h.claim? slot with
  | none =>
      rw [handle_of_foreign hclaim]
      refine Scene.LeavesFlight.rollsBackOnce ⟨only_see h sequence last s _, ?_⟩
      rw [toSite_see]
      exact .refl _
  | some d =>
      have hslot := (claim?_eq_some_iff.mp hclaim).1
      have hgoes := Plan.goes_dispatch e h.queue d slot.failed h.tally.countSeen.countOwned
        (h.see sequence last s).2
      rw [handle_of_claim hclaim]
      rcases hgoes.flight hdiscreet with hcourse | hcourse
      · exact (leavesFlight_conclude hcourse).rollsBackOnce
      · rw [toSite_see] at hcourse
        exact (takesBack_conclude hcourse).rollsBackOnce hslot (hroom d hslot)

/-- A send waits for its permit, marks the message stale and breaks: the message is requeued, and
was taken back before. -/
theorem rolls_back_once_rehearsal :
    let e := (Scripted.environment true).patient Rehearsal.permit
    let slot := Slot.holding Rehearsal.delivery false
    let s := Rehearsal.scene
      { waits := true, marksStale := true, ending := .fails (.transient "gone") }
    let turn := Rehearsal.handler.handle e slot 0 true s
    turn.scene.calls =
        [.send Rehearsal.delivery, .requeue Rehearsal.delivery.message, .count .requeued] ∧
      turn.scene.RollsBackOnce e slot s := by
  refine ⟨by decide, rolls_back_once _ ?_ _ _ _ _ ?_⟩
  · refine (Scripted.discreet true).patient (fun _ _ _ _ _ h => Scripted.sameFlight_resume h) ?_
    intro d mark s s' h
    cases h
    exact .refl _
  · intro d hd
    cases hd
    decide

end Handler

end ShardedDelivery
