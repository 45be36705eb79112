import ShardedDelivery.Proofs.Pool.Shares
import ShardedDelivery.Proofs.Pool.Tickets

/-! # The hand-off

What is published under a sequence is shown to one handler only, the one that its channel falls
to, once and unchanged. -/

namespace ShardedDelivery

namespace Deed

/-- The handler and what it is shown under a sequence, unless that is empty. -/
def shown? (s : Nat) : Deed → Option (Nat × Slot)
  | begun i t slot => if t = s ∧ slot ≠ .empty then some (i, slot) else none
  | _ => none

theorem shown?_eq_some {s i : Nat} {slot : Slot} {x : Deed} :
    x.shown? s = some (i, slot) ↔ x = .begun i s slot ∧ slot ≠ .empty := by
  cases x with
  | begun j t other =>
      simp only [shown?, Option.ite_none_right_eq_some, Option.some.injEq, Prod.mk.injEq,
        begun.injEq]
      constructor
      · rintro ⟨⟨rfl, hne⟩, rfl, rfl⟩
        exact ⟨⟨rfl, rfl, rfl⟩, hne⟩
      · rintro ⟨⟨rfl, rfl, rfl⟩, hne⟩
        exact ⟨⟨rfl, hne⟩, rfl, rfl⟩
  | _ => simp [shown?]

end Deed

namespace Trail

/-- Whom something was shown under a sequence, and what, in order. -/
def shown (past : Trail) (s : Nat) : List (Nat × Slot) := past.filterMap (Deed.shown? s)

theorem mem_shown {past : Trail} {s i : Nat} {slot : Slot} :
    (i, slot) ∈ past.shown s ↔ .begun i s slot ∈ past ∧ slot ≠ .empty := by
  simp only [shown, List.mem_filterMap, Deed.shown?_eq_some]
  constructor
  · rintro ⟨x, hx, rfl, hne⟩
    exact ⟨hx, hne⟩
  · rintro ⟨hx, hne⟩
    exact ⟨_, hx, rfl, hne⟩

/-- A handler is not shown more than it begins. -/
theorem length_shown_le {past : Trail} {s i : Nat} (h : ∀ x ∈ past.shown s, x.1 = i) :
    (past.shown s).length ≤ (past.passed i .begun).count s := by
  induction past with
  | nil => simp [shown]
  | cons x past ih =>
      cases hx : x.shown? s with
      | none =>
          have hshown : shown (x :: past) s = shown past s := by simp [shown, hx]
          rw [hshown] at h ⊢
          rw [passed_cons, List.count_append]
          exact (ih h).trans (Nat.le_add_left _ _)
      | some y =>
          obtain ⟨j, slot⟩ := y
          have hshown : shown (x :: past) s = (j, slot) :: shown past s := by simp [shown, hx]
          rw [hshown] at h ⊢
          obtain ⟨rfl, -⟩ := Deed.shown?_eq_some.mp hx
          obtain rfl : j = i := h (j, slot) (by simp)
          have hrest := ih fun y hy => h y (List.mem_cons_of_mem _ hy)
          rw [passed_cons, List.count_append]
          simp only [List.length_cons, Deed.sequenceAt?_begun, and_self, if_true,
            Option.toList_some, List.count_singleton_self]
          omega

end Trail

namespace Pool

/-- The pool is closed, and all handlers have ended. -/
def Drained (p : Pool) : Prop := p.closed ∧ ∀ w ∈ p.workers, w.isGone

instance (p : Pool) : Decidable p.Drained := inferInstanceAs (Decidable (_ ∧ _))

namespace Sound

variable {n : Nat} {p : Pool} {past : Trail}

/-- Once a pool has drained, every handler is through with everything, unless it was stopped. -/
theorem reached_of_drained (h : p.Sound n past) (hstop : ∀ i, .stopped i ∉ past)
    (hd : p.Drained) {i : Nat} (hi : i < n) (φ : Phase) : past.reached i φ = p.next := by
  obtain ⟨hclosed, hgone⟩ := hd
  have hlt : i < p.workers.length := by rw [h.staffed.size]; exact hi
  have hw : p.workers[i]? = some p.workers[i] := List.getElem?_eq_getElem hlt
  have hended := Worker.isGone_iff.mp (hgone _ (List.getElem_mem hlt))
  have hheard := h.positioned.heard_eq i hi fun j t hj => absurd hj (h.staffed.not_gaveUp hstop j t)
  have hnone : p.announcement = none := by simp [announcement, (h.staffed.shut hclosed).1]
  rw [h.positioned.left i _ hw hended (hstop i) φ, hheard]
  simp only [announcedTo, hnone]

/-- What anyone is shown under a sequence is its event, and falls to them. -/
theorem eq_of_shown (h : p.Sound n past) {i s : Nat} {slot event : Slot}
    (hevent : past.events[s]? = some event) (hs : (i, slot) ∈ past.shown s) :
    slot = event ∧ event.fallsTo n i := by
  obtain ⟨hmem, hne⟩ := Trail.mem_shown.mp hs
  have hshare : past.Shares n i s slot := h.shared.deeds _ hmem
  exact hshare.eq_of_ne hne hevent

/-- An event is shown to nobody or, once, to its owner. -/
theorem shown_eq (h : p.Sound n past) {s : Nat} {event : Slot} {d : Delivery}
    (hevent : past.events[s]? = some event) (hd : event.delivery = some d) :
    past.shown s = [] ∨ past.shown s = [(d.subscription.channel.shard n, event)] := by
  have hall : ∀ x ∈ past.shown s, x = (d.subscription.channel.shard n, event) := by
    rintro ⟨i, slot⟩ hx
    obtain ⟨rfl, hfalls⟩ := h.eq_of_shown hevent hx
    obtain ⟨d', hd', rfl⟩ := Slot.fallsTo_iff.mp hfalls
    rw [hd, Option.some.injEq] at hd'
    rw [hd']
  have hlength : (past.shown s).length ≤
      (past.passed (d.subscription.channel.shard n) .begun).count s :=
    Trail.length_shown_le fun x hx => congrArg Prod.fst (hall x hx)
  have hcount := List.nodup_iff_count_le_one.mp
    (h.positioned.numbered.nodup (d.subscription.channel.shard n) .begun) s
  cases hshown : past.shown s with
  | nil => exact Or.inl rfl
  | cons x rest =>
      rw [hshown, List.length_cons] at hlength
      have hrest : rest = [] := List.eq_nil_of_length_eq_zero (by omega)
      rw [hrest, hall x (by simp [hshown])]
      exact Or.inr rfl

/-- The owner of an event that has begun its sequence was shown the event. -/
theorem shown_of_begun (h : p.Sound n past) {s i : Nat} {event : Slot}
    (hevent : past.events[s]? = some event) (hfalls : event.fallsTo n i)
    (hs : s < past.reached i .begun) : (i, event) ∈ past.shown s := by
  obtain ⟨slot, hmem⟩ := h.positioned.numbered.begun_iff.mpr hs
  have hshare : past.Shares n i s slot := h.shared.deeds _ hmem
  obtain ⟨event', hevent', rfl⟩ := hshare
  rw [hevent, Option.some.injEq] at hevent'
  subst hevent'
  rw [Slot.shareOf, if_pos hfalls] at hmem
  refine Trail.mem_shown.mpr ⟨hmem, ?_⟩
  rintro rfl
  simp [Slot.fallsTo, Slot.empty] at hfalls

end Sound

end Pool

namespace Run

variable {σ : Type} {e : Environment σ} {rely : Site σ → Site σ → Prop} {config : Config}
  {reporting : Bool} {scene : Scene σ} {past : Trail} {f : Floor σ}

theorem ticketed (h : Run e rely (.opening config reporting scene) past f) :
    f.pool.Ticketed past := by
  have hboth : f.pool.Positioned config.handlers.toNat past ∧
      f.pool.Staffed config.handlers.toNat past ∧ f.pool.Ticketed past := by
    refine h.invariant
      (I := fun p past => p.Positioned config.handlers.toNat past ∧
        p.Staffed config.handlers.toNat past ∧ p.Ticketed past)
      ⟨.new config reporting, .new config reporting, .new config reporting⟩ ?_
    rintro p past deeds q ⟨hp, hs, ht⟩ hm
    exact ⟨hp.move hs hm, hs.move hm, ht.move hp.written hm⟩
  exact hboth.2.2

/-- An accepted event is shown at most once, to the handler that its channel falls to and as it
was published; whatever is shown under another sequence was published by somebody else. After the
pool has drained without a handler having been stopped, the event was shown exactly once. -/
theorem handed_over_once (h : Run e rely (.opening config reporting scene) past f)
    {ticket s : Nat} {slot : Slot} {d : Delivery} (hcame : .came ticket slot ∈ past)
    (hd : slot.delivery = some d) (hok : (ticket, .ok s) ∈ f.pool.results) :
    (past.shown s = [] ∨
      past.shown s = [(d.subscription.channel.shard config.handlers.toNat, slot)]) ∧
    ((∀ i, .stopped i ∉ past) → f.pool.Drained →
      past.shown s = [(d.subscription.channel.shard config.handlers.toNat, slot)]) ∧
    ∀ t i other, t ≠ s → (i, other) ∈ past.shown t →
      ∃ ticket', ticket' ≠ ticket ∧ .came ticket' other ∈ past ∧ .wrote ticket' t other ∈ past := by
  have hsound := h.sound
  have htickets := h.ticketed
  obtain ⟨slot', hwrote⟩ := htickets.result ticket s hok
  obtain ⟨hcame', hevent⟩ := htickets.wrote ticket s slot' hwrote
  obtain rfl : slot' = slot := htickets.came_eq ticket slot' slot hcame' hcame
  have honce := hsound.shown_eq hevent hd
  refine ⟨honce, ?_, ?_⟩
  · intro hstop hdrained
    have hpos : 0 < config.handlers.toNat := config.handlers_pos
    have howner := d.subscription.channel.shard_lt_of_pos hpos
    have hbegun := hsound.reached_of_drained hstop hdrained howner .begun
    obtain ⟨hlt, -⟩ := List.getElem?_eq_some_iff.mp hevent
    rw [hsound.positioned.written, ← hbegun] at hlt
    have hfalls : slot'.fallsTo config.handlers.toNat
        (d.subscription.channel.shard config.handlers.toNat) :=
      Slot.fallsTo_iff.mpr ⟨d, hd, rfl⟩
    have hmem := hsound.shown_of_begun hevent hfalls hlt
    rcases honce with hnil | hone
    · simp [hnil] at hmem
    · exact hone
  · intro t i other hne hshown
    obtain ⟨hmem, hnonempty⟩ := Trail.mem_shown.mp hshown
    have hshare : past.Shares config.handlers.toNat i t other := hsound.shared.deeds _ hmem
    obtain ⟨event, hother, -⟩ := id hshare
    obtain ⟨rfl, -⟩ := hshare.eq_of_ne hnonempty hother
    obtain ⟨ticket', hwrote'⟩ := htickets.event t other hother
    refine ⟨ticket', ?_, (htickets.wrote ticket' t other hwrote').1, hwrote'⟩
    rintro rfl
    exact hne ((htickets.wrote_eq ticket' ticket' t s other slot' hwrote' hwrote).mp rfl)

/-- Four events go through two places, and each is shown once, to its own handler. -/
theorem handed_over_once_rehearsal : ∃ past f,
    Run (Scripted.environment false) (fun _ _ => False) Rehearsal.opening past f ∧
      ∀ n < 4, past.shown n = [(n % 2, .holding (Rehearsal.event n) false)] := by
  obtain ⟨past, f, hrun, hstaffed, hdrained, haccepted⟩ := Rehearsal.exists_run
    Rehearsal.opening Rehearsal.relay
    (P := fun past f => past.staffed ∧ f.pool.Drained ∧ ∀ n ∈ List.range 4,
      .came n (.holding (Rehearsal.event n) false) ∈ past ∧ (n, .ok n) ∈ f.pool.results)
    (by decide +kernel)
  refine ⟨past, f, hrun, fun n hn => ?_⟩
  obtain ⟨hcame, hok⟩ := haccepted n (List.mem_range.mpr hn)
  have howner : ∀ n < 4, (Rehearsal.event n).subscription.channel.shard 2 = n % 2 := by decide
  rw [← howner n hn]
  exact (handed_over_once hrun hcame rfl hok).2.1 (Trail.not_stopped hstaffed) hdrained

end Run

end ShardedDelivery
