import ShardedDelivery.Proofs.Pool.Shares

/-! # The slot protocol

While no handler is stopped, a sequence is held by exactly the handlers that have not released it.
So the count of a place never falls below zero, a place is written anew only after everyone has
claimed and released what was there, and what is seen in it is its own event or nothing. -/

namespace ShardedDelivery

/-! ## The capacity -/

theorem Worker.Turn.capacity_eq {i : Nat} {closed : Bool} {w w' : Worker} {ring ring' : Ring}
    {deeds : List Deed} {report : Option Report}
    (h : w.Turn i closed ring deeds w' ring' report) : ring'.capacity = ring.capacity := by
  cases h with
  | claim s hs => exact ring.capacity_claim s w.handler.owns
  | release s slot hs => exact ring.capacity_release s
  | _ => rfl

theorem Pool.Move.capacity_eq {p q : Pool} {deeds : Trail} (h : p.Move deeds q) :
    q.ring.capacity = p.ring.capacity := by
  cases h with
  | come slot =>
      obtain ⟨waiting, results, heq, -⟩ := p.publish_eq slot
      rw [heq]
  | write ticket slot ring hh hr => exact Ring.capacity_write? hr
  | giveUp ticket s told w hh hw hg =>
      exact p.ring.capacity_abandon s (UInt64.ofNat (p.workers.length - told))
  | turn i w _ w' ring report reports hw ht hr => exact ht.capacity_eq
  | _ => rfl

/-! ## The protocol -/

/-- How `n` handlers use the slots of a ring with this capacity. The sequence that was written last
to a place is current. -/
structure Pool.SlotProtocol (n capacity : Nat) (p : Pool) (past : Trail) : Prop where
  /-- The count of a place is the number of handlers that have still to release its sequence. -/
  pending_eq : ∀ s, p.Current s →
    (p.ring.place s).pending.toNat = ((Finset.range n).filter (.released · s ∉ past)).card
  /-- Whoever is about to release a sequence is still counted. -/
  pending_pos : ∀ (i : Nat) (w : Worker) s slot, p.workers[i]? = some w →
    w.stage = .claimed s slot → p.Current s ∧ 0 < (p.ring.place s).pending
  /-- A place is written anew only after everyone has claimed and released what was there. -/
  freed : ∀ before ticket s slot after, past = before ++ .wrote ticket s slot :: after →
    capacity ≤ s → ∀ i < n,
      (∃ share, .claimed i (s - capacity) share ∈ before) ∧ .released i (s - capacity) ∈ before
  /-- Whoever is about to claim a sequence sees its event or nothing. -/
  seen : ∀ (i : Nat) (w : Worker) s, p.workers[i]? = some w → w.stage = .received s →
    ∃ event, past.events[s]? = some event ∧
      ((p.ring.place s).slot = event ∨ (p.ring.place s).slot = .empty)
  /-- A delivery stays in its place until its owner claims it. -/
  kept : ∀ s event d, p.Current s → past.events[s]? = some event → event.delivery = some d →
    (∀ share, .claimed (d.subscription.channel.shard n) s share ∉ past) →
      (p.ring.place s).slot = event
  /-- From then on the place is empty. -/
  emptied : ∀ s event d, p.Current s → past.events[s]? = some event → event.delivery = some d →
    (∃ share, .claimed (d.subscription.channel.shard n) s share ∈ past) →
      (p.ring.place s).slot = .empty

namespace Pool.Sound

variable {n : Nat} {p : Pool} {past : Trail}

/-- Unless an announcement has broken off, everything that is written is held until its release. -/
theorem holds_iff (h : p.Sound n past) (hgave : ∀ i s, .gaveUp i s ∉ past) {i t : Nat} (hi : i < n)
    (ht : t < p.next) : p.Holds past i t ↔ .released i t ∉ past := by
  have hheard := h.positioned.heard_eq i hi fun j s hj => absurd hj (hgave j s)
  rw [h.positioned.numbered.released_iff, Nat.not_lt, Holds]
  refine ⟨fun hhold => hhold.1, fun hle => ⟨hle, ?_⟩⟩
  cases ha : p.announcement with
  | none =>
      simp only [announcedTo, ha] at hheard
      exact Or.inl (by omega)
  | some at? =>
      obtain ⟨s, told⟩ := at?
      obtain ⟨hnext, -⟩ := h.positioned.announcing s told ha
      simp only [announcedTo, ha] at hheard
      rw [owes_of_announcement ha]
      split at hheard
      · exact Or.inl (by omega)
      · omega

theorem pending_eq (h : p.Sound n past) (hgave : ∀ i s, .gaveUp i s ∉ past) {s : Nat}
    (hs : p.Current s) :
    (p.ring.place s).pending.toNat = ((Finset.range n).filter (.released · s ∉ past)).card := by
  rw [h.placed.pending s hs]
  congr 1
  ext i
  rw [mem_holders, Finset.mem_filter, Finset.mem_range]
  exact and_congr_right fun hi => h.holds_iff hgave hi hs.1

theorem pending_pos (h : p.Sound n past) {i s : Nat} {w : Worker} {slot : Slot}
    (hw : p.workers[i]? = some w) (hs : w.stage = .claimed s slot) :
    p.Current s ∧ 0 < (p.ring.place s).pending := by
  obtain ⟨hi, -⟩ := List.getElem?_eq_some_iff.mp hw
  rw [h.staffed.size] at hi
  have hstage := (h.positioned.stands i w hw).stage
  simp only [hs, Stage.At] at hstage
  obtain ⟨hhold, -, -⟩ := h.positioned.holds hw hstage.1 hstage.2.2.1
  have hcurrent := h.placed.live i hi s hhold
  have hpos := Finset.card_pos.mpr ⟨i, mem_holders.mpr ⟨hi, hhold⟩⟩
  rw [← h.placed.pending s hcurrent] at hpos
  exact ⟨hcurrent, UInt64.lt_iff_toNat_lt.mpr hpos⟩

theorem freed_of_write (h : p.Sound n past) (hgave : ∀ i s, .gaveUp i s ∉ past) {slot : Slot}
    {ring : Ring} (hr : p.ring.write? p.next slot = some ring)
    (hround : p.ring.capacity ≤ p.next) {i : Nat} (hi : i < n) :
    (∃ share, .claimed i (p.next - p.ring.capacity) share ∈ past) ∧
      .released i (p.next - p.ring.capacity) ∈ past := by
  have hpos : 0 < p.ring.capacity := p.ring.size_pos
  have hcurrent : p.Current (p.next - p.ring.capacity) := ⟨by omega, by omega⟩
  have hplace : p.ring.place (p.next - p.ring.capacity) = p.ring.place p.next :=
    p.ring.place_congr (Nat.mod_eq_sub_mod hround).symm
  have hzero : (p.ring.place p.next).pending = 0 := by
    by_contra hne
    rw [Ring.write?_eq_none_iff.mpr hne] at hr
    contradiction
  have hcount := h.placed.pending _ hcurrent
  rw [hplace, hzero, UInt64.toNat_zero, eq_comm, Finset.card_eq_zero] at hcount
  have hnot : ¬ p.Holds past i (p.next - p.ring.capacity) := by
    intro hhold
    have hmem := mem_holders.mpr ⟨hi, hhold⟩
    simp [hcount] at hmem
  rw [h.holds_iff hgave hi hcurrent.1, not_not] at hnot
  obtain ⟨-, -, hle, -, -⟩ := h.positioned.chain h.staffed hi
  rw [h.positioned.numbered.claimed_iff]
  exact ⟨(h.positioned.numbered.released_iff.mp hnot).trans_le hle, hnot⟩

theorem seen (h : p.Sound n past) {i s : Nat} {w : Worker} (hw : p.workers[i]? = some w)
    (hs : w.stage = .received s) :
    ∃ event, past.events[s]? = some event ∧
      ((p.ring.place s).slot = event ∨ (p.ring.place s).slot = .empty) := by
  obtain ⟨hi, -⟩ := List.getElem?_eq_some_iff.mp hw
  rw [h.staffed.size] at hi
  have hstage := (h.positioned.stands i w hw).stage
  simp only [hs, Stage.At] at hstage
  obtain ⟨hhold, -, event, hevent⟩ := h.positioned.holds hw hstage.1 hstage.2.2.1
  exact ⟨event, hevent, h.placed.slot_eq hi hhold hevent⟩

theorem slot_eq_of_current (h : p.Sound n past) (hgave : ∀ i s, .gaveUp i s ∉ past) {s : Nat}
    {event : Slot} {d : Delivery} (hn : 0 < n) (hs : p.Current s)
    (hevent : past.events[s]? = some event) (hd : event.delivery = some d) :
    ((∀ share, .claimed (d.subscription.channel.shard n) s share ∉ past) →
      (p.ring.place s).slot = event) ∧
    ((∃ share, .claimed (d.subscription.channel.shard n) s share ∈ past) →
      (p.ring.place s).slot = .empty) := by
  have hfalls : event.fallsTo n (d.subscription.channel.shard n) :=
    Slot.fallsTo_iff.mpr ⟨d, hd, rfl⟩
  have howner := Slot.lt_of_fallsTo hfalls hn
  rw [h.positioned.numbered.claimed_iff]
  constructor
  · intro hnot
    have hle : past.reached (d.subscription.channel.shard n) .claimed ≤ s := by
      refine Nat.le_of_not_lt fun hlt => ?_
      obtain ⟨share, hshare⟩ := h.positioned.numbered.claimed_iff.mpr hlt
      exact hnot share hshare
    have hunreleased : .released (d.subscription.channel.shard n) s ∉ past := by
      obtain ⟨-, -, hchain, -, -⟩ := h.positioned.chain h.staffed howner
      rw [h.positioned.numbered.released_iff]
      omega
    refine h.placed.kept s event hevent hs ?_
      ⟨_, howner, (h.holds_iff hgave howner hs.1).mpr hunreleased⟩
    intro i hi
    rw [Slot.eq_of_fallsTo hi hfalls]
    exact hle
  · exact h.placed.taken _ howner s event hevent hs hfalls

end Pool.Sound

namespace Run

variable {σ : Type} {e : Environment σ} {rely : Site σ → Site σ → Prop} {config : Config}
  {reporting : Bool} {scene : Scene σ} {past : Trail} {f : Floor σ}

theorem capacity_eq (h : Run e rely (.opening config reporting scene) past f) :
    f.pool.ring.capacity = config.ringSize.toNat := by
  refine h.invariant (I := fun p _ => p.ring.capacity = config.ringSize.toNat) ?_ ?_
  · have hpos : 0 < config.ringSize.toNat := config.ringSize_pos
    simp only [Floor.opening, Pool.new, Ring.new, Ring.capacity, Array.size_replicate]
    omega
  · intro p past deeds q hp hm
    rw [hm.capacity_eq, hp]

/-- While no handler is stopped, the slots keep to their protocol, whatever the order of steps. -/
theorem slot_protocol (h : Run e rely (.opening config reporting scene) past f)
    (hstop : ∀ i, .stopped i ∉ past) :
    f.pool.SlotProtocol config.handlers.toNat config.ringSize.toNat past := by
  have hsound := h.sound
  have hgave := hsound.staffed.not_gaveUp hstop
  exact {
    pending_eq := fun s hs => hsound.pending_eq hgave hs
    pending_pos := fun i w s slot hw hs => hsound.pending_pos hw hs
    freed := by
      intro before ticket s slot after hpast hround i hi
      -- back to the floor where the event was written
      obtain ⟨earlier, g, a, g', first, rest, hrun, hact, hdeeds, rfl, -⟩ := h.split hpast
      have hgave' : ∀ i s, .gaveUp i s ∉ earlier := by
        intro j t hj
        exact hgave j t (by rw [hpast]; simp [hj])
      have hmove := Floor.move_of_act hact
      have hmem : .wrote ticket s slot ∈ g.deeds a g' := by simp [hdeeds]
      obtain ⟨rfl, ring, hr⟩ := hmove.write_of_mem hmem
      rw [← hrun.capacity_eq] at hround ⊢
      obtain ⟨⟨share, hclaimed⟩, hreleased⟩ := hrun.sound.freed_of_write hgave' hr hround hi
      exact ⟨⟨share, List.mem_append_left _ hclaimed⟩, List.mem_append_left _ hreleased⟩
    seen := fun i w s hw hs => hsound.seen hw hs
    kept := fun s event d hs hevent hd hnot =>
      (hsound.slot_eq_of_current hgave config.handlers_pos hs hevent hd).1 hnot
    emptied := fun s event d hs hevent hd hclaimed =>
      (hsound.slot_eq_of_current hgave config.handlers_pos hs hevent hd).2 hclaimed }

/-- A place is used for the second time: one handler has released it, the other is about to. -/
theorem slot_protocol_rehearsal : ∃ past f,
    Run (Scripted.environment false) (fun _ _ => False) Rehearsal.opening past f ∧
      .wrote 2 2 (.holding (Rehearsal.event 2) false) ∈ past ∧ .released 0 2 ∈ past ∧
      .claimed 1 2 .empty ∈ past ∧ (f.pool.ring.place 2).pending = 1 ∧
      f.pool.SlotProtocol 2 2 past := by
  obtain ⟨past, f, hrun, hstaffed, hwrote, hreleased, hclaimed, hpending⟩ := Rehearsal.exists_run
    Rehearsal.opening (Rehearsal.relay.take 64)
    (P := fun past f => past.staffed ∧ .wrote 2 2 (.holding (Rehearsal.event 2) false) ∈ past ∧
      .released 0 2 ∈ past ∧ .claimed 1 2 .empty ∈ past ∧ (f.pool.ring.place 2).pending = 1)
    (by decide +kernel)
  exact ⟨past, f, hrun, hwrote, hreleased, hclaimed, hpending,
    slot_protocol hrun (Trail.not_stopped hstaffed)⟩

end Run

end ShardedDelivery
