import ShardedDelivery.Proofs.Pool.HandOff
import ShardedDelivery.Proofs.Pool.Pressure

/-! # Abandoned sequences

A publisher that finds a handler gone gives its sequence up for this handler and all after it. Those
before have heard of it and deal with it as with any other; nobody else ever does. -/

namespace ShardedDelivery

namespace Pool

/-! ## Results -/

/-- The publishers that have come and did not withdraw, first those who have been told how they
fared. -/
def comers (p : Pool) : List Nat := p.results.map Prod.fst ++ p.pending

/-- Every publisher comes once and is told once. -/
structure Answers (p : Pool) : Prop where
  nodup : p.comers.Nodup
  lt : ∀ ticket ∈ p.comers, ticket < p.tickets

namespace Answers

variable {p q : Pool} {deeds : Trail}

theorem new (config : Config) (reporting : Bool) : Answers (.new config reporting) := by
  constructor <;> simp [comers, pending, Pool.new]

/-- Moves by which publishers at most withdraw. -/
theorem keep (h : Answers p) (ht : q.tickets = p.tickets) (hc : q.comers.Subperm p.comers) :
    Answers q where
  nodup := by
    obtain ⟨l, hperm, hsub⟩ := hc
    exact hperm.nodup_iff.mp (hsub.nodup h.nodup)
  lt := by
    intro ticket hmem
    rw [ht]
    exact h.lt ticket (hc.subset hmem)

/-- Moves by which nobody comes or withdraws. -/
theorem same (h : Answers p) (ht : q.tickets = p.tickets) (hc : q.comers = p.comers) :
    Answers q :=
  h.keep ht (hc ▸ List.Subperm.refl _)

theorem come (h : Answers p) (slot : Slot) : Answers (p.publish slot) := by
  have hperm : (p.publish slot).comers.Perm (p.tickets :: p.comers) := by
    unfold publish
    split
    · simpa [comers, pending] using List.perm_append_singleton p.tickets p.comers
    · simp [comers, pending]
  have hfresh : p.tickets ∉ p.comers := fun hmem => Nat.lt_irrefl _ (h.lt _ hmem)
  have htickets : (p.publish slot).tickets = p.tickets + 1 := by
    obtain ⟨waiting, results, heq, -⟩ := p.publish_eq slot
    rw [heq]
  constructor
  · rw [hperm.nodup_iff]
    exact List.nodup_cons.mpr ⟨hfresh, h.nodup⟩
  · intro ticket hmem
    rw [htickets]
    rcases List.mem_cons.mp (hperm.subset hmem) with rfl | hmem
    · exact Nat.lt_succ_self _
    · exact Nat.lt_succ_of_lt (h.lt ticket hmem)

/-- Whoever gets the lock no longer waits for it. -/
theorem perm_waiting {waiting : List (Nat × Slot)} {ticket : Nat} {slot : Slot}
    (hn : (waiting.map Prod.fst).Nodup) (hw : (ticket, slot) ∈ waiting) :
    (ticket :: (waiting.filter (·.1 ≠ ticket)).map Prod.fst).Perm (waiting.map Prod.fst) := by
  have hmem : ticket ∈ waiting.map Prod.fst := List.mem_map_of_mem hw
  have herase : (waiting.filter (·.1 ≠ ticket)).map Prod.fst =
      (waiting.map Prod.fst).erase ticket := by
    rw [hn.erase_eq_filter, List.filter_map]
    congr 2
    funext x
    simp [bne, beq_eq_decide]
  rw [herase]
  exact (List.perm_cons_erase hmem).symm

theorem move (h : Answers p) (hm : p.Move deeds q) : Answers q := by
  cases hm with
  | come slot => exact h.come slot
  | acquire ticket slot hh hw =>
      have hold : p.comers = p.results.map Prod.fst ++ p.waiting.map Prod.fst := by
        simp [comers, pending, hh]
      have hnodup : (p.waiting.map Prod.fst).Nodup := (hold ▸ h.nodup).of_append_right
      refine h.keep rfl (List.Perm.subperm ?_)
      rw [hold]
      exact (perm_waiting hnodup hw).append_left _
  | withdraw ticket slot hh =>
      refine h.keep rfl (List.Sublist.subperm ?_)
      simp [comers, pending, hh]
  | withdrawWaiting ticket =>
      refine h.keep rfl (List.Sublist.subperm ?_)
      exact (((List.filter_sublist.map _).append_left _).append_left _)
  | write ticket slot ring hh hr => exact h.same rfl (by simp [comers, pending, hh])
  | tell ticket s told w hh hw hg hroom => exact h.same rfl (by simp [comers, pending, hh])
  | giveUp ticket s told w hh hw hg => exact h.same rfl (by simp [comers, pending, Pool.finish, hh])
  | finish ticket s told hh ht => exact h.same rfl (by simp [comers, pending, Pool.finish, hh])
  | _ => exact h.same rfl rfl

end Answers

/-- Whoever has been told how they fared is not under way, and is told nothing else. -/
theorem Answers.result_eq {p : Pool} (h : p.Answers) {ticket : Nat}
    {result : Except PublishError Nat} (hmem : (ticket, result) ∈ p.results) :
    ticket ∉ p.pending ∧ ∀ other, (ticket, other) ∈ p.results → other = result := by
  obtain ⟨hresults, -, hdisjoint⟩ := List.nodup_append'.mp h.nodup
  refine ⟨hdisjoint (List.mem_map_of_mem hmem), fun other hother => ?_⟩
  exact congrArg Prod.snd (List.inj_on_of_nodup_map hresults hother hmem rfl)

/-! ## Giving up -/

/-- A sequence is given up by the publisher with the lock, which does nothing else meanwhile. -/
theorem Move.giveUp_of_mem {p q : Pool} {deeds : Trail} {j s : Nat} (hm : p.Move deeds q)
    (hmem : .gaveUp j s ∈ deeds) :
    p.announcement = some (s, j) ∧ deeds = [.gaveUp j s] := by
  cases hm with
  | giveUp ticket s' told w hh hw hg =>
      simp only [List.mem_singleton, Deed.gaveUp.injEq] at hmem
      obtain ⟨rfl, rfl⟩ := hmem
      exact ⟨by simp [announcement, hh], rfl⟩
  | turn i w _ w' ring report reports hw ht hr => exact absurd hmem (ht.not_mem_deeds.1 j s)
  | _ => simp at hmem

/-- What a publisher that gives up leaves behind: it has failed, no more events are accepted, and
the handlers before the one that was gone have heard of the sequence, the others never do. -/
structure Renounced (n : Nat) (p : Pool) (past : Trail) : Prop where
  refused : ∀ j s, .gaveUp j s ∈ past → p.running = false ∧
    ∃ ticket slot, .wrote ticket s slot ∈ past ∧ (ticket, .error .shutdown) ∈ p.results
  told : ∀ j s, .gaveUp j s ∈ past → j < n ∧ ∀ i < j, s < past.reached i .heard
  untold : ∀ j s, .gaveUp j s ∈ past → ∀ i, j ≤ i → past.reached i .heard ≤ s

namespace Renounced

variable {n : Nat} {p q : Pool} {past deeds : Trail}

theorem new (config : Config) (reporting : Bool) :
    Renounced config.handlers.toNat (.new config reporting) [] := by
  constructor <;> simp

/-- Moves that do not give up, and after which only handlers hear more that heard of everything
given up so far. -/
theorem keep (h : Renounced n p past) (hr : p.running = false → q.running = false)
    (hres : p.results ⊆ q.results) (hd : ∀ j s, .gaveUp j s ∉ deeds)
    (hh : ∀ j s, .gaveUp j s ∈ past → ∀ i, j ≤ i → Trail.reached deeds i .heard = 0) :
    Renounced n q (past ++ deeds) := by
  have hold : ∀ j s, .gaveUp j s ∈ past ++ deeds → .gaveUp j s ∈ past := by
    intro j s hmem
    exact (List.mem_append.mp hmem).resolve_right (hd j s)
  constructor
  · intro j s hmem
    obtain ⟨hrunning, ticket, slot, hwrote, hresult⟩ := h.refused j s (hold j s hmem)
    exact ⟨hr hrunning, ticket, slot, List.mem_append_left _ hwrote, hres hresult⟩
  · intro j s hmem
    obtain ⟨hlt, htold⟩ := h.told j s (hold j s hmem)
    refine ⟨hlt, fun i hi => ?_⟩
    rw [Trail.reached_append]
    exact Nat.lt_add_right _ (htold i hi)
  · intro j s hmem i hi
    rw [Trail.reached_append, hh j s (hold j s hmem) i hi]
    exact h.untold j s (hold j s hmem) i hi

theorem giveUp (h : Renounced n p past) (hs : Staffed n p past) (hp : Positioned n p past)
    (ht : Ticketed p past) {ticket s told : Nat} {w : Worker} (ring : Ring)
    (hh : p.holder = some ⟨ticket, .announcing s told⟩) (hw : p.workers[told]? = some w) :
    Renounced n ({ p with ring, running := false }.finish ticket (.error .shutdown))
      (past ++ [.gaveUp told s]) := by
  have ha : p.announcement = some (s, told) := by simp [announcement, hh]
  have hreached : ∀ i, Trail.reached (past ++ [.gaveUp told s]) i = past.reached i :=
    fun i => Trail.reached_append_of_passed past fun φ => by simp [Trail.passed_cons]
  have hnew : ∀ j t, .gaveUp j t ∈ past ++ [.gaveUp told s] →
      .gaveUp j t ∈ past ∨ j = told ∧ t = s := by
    intro j t hmem
    simpa using hmem
  constructor
  · intro j t hmem
    refine ⟨rfl, ?_⟩
    rcases hnew j t hmem with hmem | ⟨rfl, rfl⟩
    · obtain ⟨-, other, slot, hwrote, hresult⟩ := h.refused j t hmem
      exact ⟨other, slot, List.mem_append_left _ hwrote, List.mem_append_left _ hresult⟩
    · obtain ⟨slot, hwrote⟩ := ht.announcing ticket t j hh
      exact ⟨ticket, slot, List.mem_append_left _ hwrote, by simp [finish]⟩
  · intro j t hmem
    simp only [hreached]
    rcases hnew j t hmem with hmem | ⟨rfl, rfl⟩
    · exact h.told j t hmem
    · have hj := hs.lt_of_getElem? hw
      refine ⟨hj, fun i hi => ?_⟩
      -- no announcement broke off before this handler, so all before it have heard
      have heq := hp.heard_eq i (hi.trans hj) fun k u hk => hi.trans_le (hp.untold t j ha k u hk)
      simp only [announcedTo, ha, hi, if_true] at heq
      omega
  · intro j t hmem i hi
    rw [hreached]
    rcases hnew j t hmem with hmem | ⟨rfl, rfl⟩
    · exact h.untold j t hmem i hi
    · exact hp.unheard t j ha i hi

theorem move (h : Renounced n p past) (hs : Staffed n p past) (hp : Positioned n p past)
    (ht : Ticketed p past) (hm : p.Move deeds q) : Renounced n q (past ++ deeds) := by
  cases hm with
  | come slot =>
      obtain ⟨waiting, results, heq, -⟩ := p.publish_eq slot
      have hresults : p.results ⊆ (p.publish slot).results := by
        unfold publish
        split <;> simp
      exact h.keep (by simp [heq]) hresults (by simp) (by simp [Deed.passes])
  | tell ticket s told w hh hw hg hroom =>
      have ha : p.announcement = some (s, told) := by simp [announcement, hh]
      refine h.keep id (List.Subset.refl _) (by simp) ?_
      intro j t hj i hi
      have hlt := (hp.heard_of_announcement hs ha hw hg).2 j t hj
      have hne : told ≠ i := by omega
      simp [Deed.passes, hne]
  | giveUp ticket s told w hh hw hg => exact h.giveUp hs hp ht _ hh hw
  | finish ticket s told hh ht =>
      exact h.keep id (List.subset_append_left _ _) (by simp) (by simp)
  | turn i w _ w' ring report reports hw hturn hr =>
      exact h.keep id (List.Subset.refl _) hturn.not_mem_deeds.1
        fun j s _ k _ => hturn.reached_heard k
  | close hp => exact h.keep (fun _ => rfl) (List.Subset.refl _) (by simp) (by simp)
  | rest => simpa using h
  | _ => exact h.keep id (List.Subset.refl _) (by simp) (by simp [Deed.passes])

end Renounced

/-! ## What becomes of the event -/

/-- A handler is there and has still to bring the sequence past this point. -/
def Awaits (p : Pool) (i : Nat) (φ : Phase) (s : Nat) : Prop :=
  ∃ w : Worker, p.workers[i]? = some w ∧ ¬ w.isGone ∧ w.Ahead φ s

theorem not_awaits_of_drained {p : Pool} (h : p.Drained) (i : Nat) (φ : Phase) (s : Nat) :
    ¬ p.Awaits i φ s := by
  rintro ⟨w, hw, hg, -⟩
  exact hg (h.2 w (List.mem_of_getElem? hw))

/-- What becomes of an event that its publisher wrote under sequence `s` and announced to the first
`j` of `n` handlers only, because the next one was gone. -/
structure Abandoned (n : Nat) (p : Pool) (past : Trail) (ticket : Nat) (slot : Slot) (s j : Nat) :
    Prop where
  /-- The publisher is told that the pool has shut down, and nothing else. -/
  refused : ∀ result, (ticket, result) ∈ p.results ↔ result = .error .shutdown
  /-- No more events are accepted. -/
  stopped : p.running = false
  /-- The sequence is used up, by this publisher alone. -/
  consumed : s < p.next ∧ ∀ other event, .wrote other s event ∈ past → other = ticket
  /-- The handler that was gone and those after it never hear of the sequence. -/
  unheard : ∀ i < n, j ≤ i → .told i s ∉ past ∧ .received i s ∉ past
  /-- Those before it receive it at most once. One that lives on has received it or has it
  queued. -/
  received : ∀ i < j, (past.passed i .received).count s ≤ 1 ∧
    (.stopped i ∉ past → (past.passed i .received).count s = 1 ∨ p.Awaits i .received s)
  /-- Right after the sequence was given up, its place has not been written again. -/
  current : ∀ before, past = before ++ [.gaveUp j s] → p.Current s
  /-- Until then the count of the place is the number of those before who have not released it. -/
  pending_eq : p.Current s →
    (p.ring.place s).pending.toNat = ((Finset.range j).filter (.released · s ∉ past)).card
  /-- No release takes a count below zero, -/
  pending_pos : ∀ (i : Nat) (w : Worker) t share, p.workers[i]? = some w →
    w.stage = .claimed t share → 0 < (p.ring.place t).pending
  /-- and no giving up. -/
  unannounced_le : ∀ t told, p.announcement = some (t, told) →
    n - told ≤ (p.ring.place t).pending.toNat
  /-- The event is shown to nobody, or once and as it was written to its owner, if that is one of
  those before. -/
  shown : past.shown s = [] ∨ ∃ d, slot.delivery = some d ∧ d.subscription.channel.shard n < j ∧
    past.shown s = [(d.subscription.channel.shard n, slot)]
  /-- An owner among those before who lives on has been shown the event or has still to come to
  it. -/
  handed : ∀ d, slot.delivery = some d → d.subscription.channel.shard n < j →
    .stopped (d.subscription.channel.shard n) ∉ past →
      past.shown s = [(d.subscription.channel.shard n, slot)] ∨
        p.Awaits (d.subscription.channel.shard n) .begun s
  /-- Once the pool has drained, each of those before who lived on has received it, and was shown it
  if it is the owner. -/
  drained : p.Drained → ∀ i < j, .stopped i ∉ past →
    (past.passed i .received).count s = 1 ∧ (slot.fallsTo n i → past.shown s = [(i, slot)])
  /-- Whatever is shown under another sequence was written there by another publisher. -/
  elsewhere : ∀ t i event, t ≠ s → (i, event) ∈ past.shown t →
    ∃ other, other ≠ ticket ∧ .wrote other t event ∈ past

namespace Sound

variable {n : Nat} {p : Pool} {past : Trail}

/-- A handler that lives on has brought everything that it has heard of past a point, or has still
to do so. -/
theorem reached_or_awaits (h : p.Sound n past) {i s : Nat} (hi : i < n)
    (hheard : s < past.reached i .heard) (hstop : .stopped i ∉ past) {φ : Phase}
    (hφ : φ ≠ .heard) : s < past.reached i φ ∨ p.Awaits i φ s := by
  obtain ⟨w, hw⟩ := h.staffed.exists_worker hi
  by_cases hg : w.isGone
  · rw [h.positioned.left i w hw (Worker.isGone_iff.mp hg) hstop φ]
    exact Or.inl hheard
  · by_cases hlt : s < past.reached i φ
    · exact Or.inl hlt
    · have hahead := (h.ahead_iff hw hg hφ).mpr ⟨Nat.le_of_not_lt hlt, hheard⟩
      exact Or.inr ⟨w, hw, hg, hahead⟩

/-- Those who have not heard of the sequence announced are counted at its place. -/
theorem unannounced_le (h : p.Sound n past) {s told : Nat} (ha : p.announcement = some (s, told)) :
    n - told ≤ (p.ring.place s).pending.toNat := by
  obtain ⟨hnext, -⟩ := h.positioned.announcing s told ha
  have hpos : 0 < p.ring.capacity := p.ring.size_pos
  rw [h.placed.pending s ⟨by omega, by omega⟩, ← Nat.card_Ico]
  refine Finset.card_le_card fun i hi => ?_
  obtain ⟨htold, hlt⟩ := Finset.mem_Ico.mp hi
  obtain ⟨-, -, hreleased, hclaimed, hreceived⟩ := h.positioned.chain h.staffed hlt
  have hunheard := h.positioned.unheard s told ha i htold
  exact mem_holders.mpr
    ⟨hlt, by omega, Or.inr ((owes_of_announcement ha i s).mpr ⟨rfl, htold⟩)⟩

/-- A sequence that was given up is held by those who heard of it and have not released it. -/
theorem pending_of_gaveUp (h : p.Sound n past) (hr : p.Renounced n past) {j s : Nat}
    (hgave : .gaveUp j s ∈ past) (hunowed : ∀ i, p.owes i s = false) (hs : p.Current s) :
    (p.ring.place s).pending.toNat = ((Finset.range j).filter (.released · s ∉ past)).card := by
  obtain ⟨hj, htold⟩ := hr.told j s hgave
  rw [h.placed.pending s hs]
  congr 1
  ext i
  rw [mem_holders, Finset.mem_filter, Finset.mem_range, Holds, hunowed,
    h.positioned.numbered.released_iff, Nat.not_lt]
  constructor
  · rintro ⟨hi, hle, hlt | hfalse⟩
    · refine ⟨Nat.lt_of_not_le fun hji => ?_, hle⟩
      exact Nat.not_lt.mpr (hr.untold j s hgave i hji) hlt
    · contradiction
  · rintro ⟨hi, hle⟩
    exact ⟨hi.trans hj, hle, Or.inl (htold i hi)⟩

/-- Whatever is shown was written by somebody. -/
theorem wrote_of_shown (h : p.Sound n past) (ht : p.Ticketed past) {t i : Nat} {event : Slot}
    (hs : (i, event) ∈ past.shown t) : ∃ ticket, .wrote ticket t event ∈ past := by
  obtain ⟨hmem, -⟩ := Trail.mem_shown.mp hs
  obtain ⟨event', hevent, -⟩ : past.Shares n i t event := h.shared.deeds _ hmem
  obtain ⟨rfl, -⟩ := h.eq_of_shown hevent hs
  exact ht.event t event hevent

/-- What was given up is shown only to an owner who heard of it. -/
theorem shown_of_gaveUp (h : p.Sound n past) (hr : p.Renounced n past) {j s : Nat} {slot : Slot}
    (hgave : .gaveUp j s ∈ past) (hevent : past.events[s]? = some slot) :
    past.shown s = [] ∨ ∃ d, slot.delivery = some d ∧ d.subscription.channel.shard n < j ∧
      past.shown s = [(d.subscription.channel.shard n, slot)] := by
  cases hshown : past.shown s with
  | nil => exact Or.inl rfl
  | cons x rest =>
      obtain ⟨i, share⟩ := x
      have hmem : (i, share) ∈ past.shown s := by simp [hshown]
      obtain ⟨rfl, hfalls⟩ := h.eq_of_shown hevent hmem
      obtain ⟨d, hd, rfl⟩ := Slot.fallsTo_iff.mp hfalls
      have honce := (h.shown_eq hevent hd).resolve_left (by simp [hshown])
      rw [hshown] at honce
      refine Or.inr ⟨d, hd, Nat.lt_of_not_le fun hle => ?_, honce⟩
      have hbegun := h.positioned.numbered.begun_iff.mp ⟨_, (Trail.mem_shown.mp hmem).1⟩
      have hn := Nat.zero_lt_of_lt (hr.told j s hgave).1
      obtain ⟨-, hb, hc, hcl, hrec⟩ :=
        h.positioned.chain h.staffed (d.subscription.channel.shard_lt_of_pos hn)
      have huntold := hr.untold j s hgave _ hle
      omega

end Sound

end Pool

/-- A handler passes a point once with every sequence that it has brought there. -/
theorem Trail.Numbered.count_passed {past : Trail} (h : past.Numbered) (i s : Nat) (φ : Phase) :
    (past.passed i φ).count s = if s < past.reached i φ then 1 else 0 := by
  rw [(h.nodup i φ).count]
  simp only [h.mem_passed_iff]

/-- The second of two handlers is stopped before the event comes. The first one is shown it after
the publisher has given up. -/
def Rehearsal.breach : List Action :=
  [.stop 1, .publish (.holding delivery false), .acquire 0] ++ List.replicate 3 .proceed ++
    List.replicate 4 (.advance 0)

namespace Run

variable {σ : Type} {e : Environment σ} {rely : Site σ → Site σ → Prop} {config : Config}
  {reporting : Bool} {scene : Scene σ} {past : Trail} {f : Floor σ}

theorem answers (h : Run e rely (.opening config reporting scene) past f) : f.pool.Answers :=
  h.invariant (I := fun p _ => p.Answers) (.new config reporting) fun _ _ _ _ ha hm => ha.move hm

theorem renounced (h : Run e rely (.opening config reporting scene) past f) :
    f.pool.Renounced config.handlers.toNat past := by
  have hall : f.pool.Sound config.handlers.toNat past ∧ f.pool.Ticketed past ∧
      f.pool.Renounced config.handlers.toNat past := by
    refine h.invariant
      (I := fun p past => p.Sound config.handlers.toNat past ∧ p.Ticketed past ∧
        p.Renounced config.handlers.toNat past)
      ⟨.new config reporting, .new config reporting, .new config reporting⟩ ?_
    rintro p past deeds q ⟨hs, ht, hr⟩ hm
    exact ⟨hs.move hm, ht.move hs.positioned.written hm, hr.move hs.staffed hs.positioned ht hm⟩
  exact hall.2.2

/-- Nothing is written between the announcement of a sequence and the moment at which it is given
up. -/
theorem next_eq_of_gaveUp (h : Run e rely (.opening config reporting scene) past f) {before : Trail}
    {j s : Nat} (hpast : past = before ++ [.gaveUp j s]) : f.pool.next = s + 1 := by
  obtain ⟨earlier, g, a, g', first, rest, hrun, hact, hdeeds, rfl, -⟩ := h.split hpast
  have hmove := Floor.move_of_act hact
  obtain ⟨ha, hone⟩ := hmove.giveUp_of_mem (j := j) (s := s) (by simp [hdeeds])
  rw [hone] at hdeeds
  have hfirst : first = [] := by
    cases first with
    | nil => rfl
    | cons x first => simp at hdeeds
  rw [← h.sound.positioned.written, hpast, hfirst]
  simpa [Deed.event?, hrun.sound.positioned.written] using
    (hrun.sound.positioned.announcing s j ha).1.symm

/-- A publisher that has written its event and then finds a handler gone fails, and its event is
dealt with by those who heard of it, and by nobody else. -/
theorem abandoned_of_gaveUp (h : Run e rely (.opening config reporting scene) past f)
    {ticket s j : Nat} {slot : Slot} (hwrote : .wrote ticket s slot ∈ past)
    (hgave : .gaveUp j s ∈ past) :
    f.pool.Abandoned config.handlers.toNat past ticket slot s j := by
  have hsound := h.sound
  have htickets := h.ticketed
  have hrenounced := h.renounced
  have hnumbered := hsound.positioned.numbered
  have hevent := (htickets.wrote ticket s slot hwrote).2
  obtain ⟨hj, htold⟩ := hrenounced.told j s hgave
  have hwriter : ∀ other event, .wrote other s event ∈ past → other = ticket := by
    intro other event hw
    exact (htickets.wrote_eq other ticket s s event slot hw hwrote).mpr rfl
  obtain ⟨hstopped, other, event, hw, hresult⟩ := hrenounced.refused j s hgave
  obtain rfl := hwriter other event hw
  obtain ⟨hdone, honly⟩ := h.answers.result_eq hresult
  have hunowed : ∀ i, f.pool.owes i s = false := by
    intro i
    rw [← Bool.not_eq_true]
    intro howes
    cases ha : f.pool.announcement with
    | none => simp [Pool.owes_of_none ha] at howes
    | some at? =>
        -- whoever announces it wrote it, and that publisher is through
        obtain ⟨t, told⟩ := at?
        obtain ⟨rfl, -⟩ := (Pool.owes_of_announcement ha i s).mp howes
        obtain ⟨holder, hh⟩ := Pool.holder_of_announcement ha
        obtain ⟨event', hw'⟩ := htickets.announcing holder t told hh
        exact hdone (by simp [Pool.pending, hh, hwriter holder event' hw'])
  have hreceived : ∀ i < j, .stopped i ∉ past →
      (past.passed i .received).count s = 1 ∨ f.pool.Awaits i .received s := by
    intro i hi hstop
    refine (hsound.reached_or_awaits (hi.trans hj) (htold i hi) hstop (by simp)).imp_left ?_
    intro hlt
    rw [hnumbered.count_passed, if_pos hlt]
  have hhanded : ∀ i < j, slot.fallsTo config.handlers.toNat i → .stopped i ∉ past →
      past.shown s = [(i, slot)] ∨ f.pool.Awaits i .begun s := by
    intro i hi hfalls hstop
    refine (hsound.reached_or_awaits (hi.trans hj) (htold i hi) hstop (by simp)).imp_left ?_
    intro hbegun
    have hmem := hsound.shown_of_begun hevent hfalls hbegun
    obtain ⟨d, hd, rfl⟩ := Slot.fallsTo_iff.mp hfalls
    exact (hsound.shown_eq hevent hd).resolve_left (List.ne_nil_of_mem hmem)
  exact {
    refused := by
      intro result
      exact ⟨fun hmem => honly result hmem, fun heq => heq ▸ hresult⟩
    stopped := hstopped
    consumed := by
      obtain ⟨hlt, -⟩ := List.getElem?_eq_some_iff.mp hevent
      exact ⟨hsound.positioned.written ▸ hlt, hwriter⟩
    unheard := by
      intro i hi hji
      have huntold := hrenounced.untold j s hgave i hji
      obtain ⟨-, -, -, -, hreceived⟩ := hsound.positioned.chain hsound.staffed hi
      rw [hnumbered.told_iff, hnumbered.received_iff]
      omega
    received := by
      intro i hi
      refine ⟨?_, hreceived i hi⟩
      rw [hnumbered.count_passed]
      split <;> simp
    current := by
      intro before hpast
      have hpos : 0 < f.pool.ring.capacity := f.pool.ring.size_pos
      have hnext := h.next_eq_of_gaveUp hpast
      exact ⟨by omega, by omega⟩
    pending_eq := hsound.pending_of_gaveUp hrenounced hgave hunowed
    pending_pos := fun i w t share hw hs => (hsound.pending_pos hw hs).2
    unannounced_le := fun t told ha => hsound.unannounced_le ha
    shown := hsound.shown_of_gaveUp hrenounced hgave hevent
    handed := fun d hd howner hstop => hhanded _ howner (Slot.fallsTo_iff.mpr ⟨d, hd, rfl⟩) hstop
    drained := by
      intro hdrained i hi hstop
      have hnot := Pool.not_awaits_of_drained hdrained i
      exact ⟨(hreceived i hi hstop).resolve_right (hnot .received s),
        fun hfalls => (hhanded i hi hfalls hstop).resolve_right (hnot .begun s)⟩
    elsewhere := by
      intro t i event hne hshown
      obtain ⟨other, hother⟩ := hsound.wrote_of_shown htickets hshown
      refine ⟨other, ?_, hother⟩
      rintro rfl
      exact hne ((htickets.wrote_eq other other t s event slot hother hwrote).mp rfl) }

/-- The breach: the event is shown to its owner after its publisher has failed. -/
theorem abandoned_of_gaveUp_rehearsal : ∃ past f,
    Run (Scripted.environment false) (fun _ _ => False) Rehearsal.start past f ∧
      past.shown 0 = [(0, .holding Rehearsal.delivery false)] ∧
      f.pool.Abandoned 2 past 0 (.holding Rehearsal.delivery false) 0 1 := by
  obtain ⟨past, f, hrun, hshown, hwrote, hgave⟩ := Rehearsal.exists_run
    Rehearsal.start Rehearsal.breach
    (P := fun past _ => past.shown 0 = [(0, .holding Rehearsal.delivery false)] ∧
      .wrote 0 0 (.holding Rehearsal.delivery false) ∈ past ∧ .gaveUp 1 0 ∈ past)
    (by decide +kernel)
  exact ⟨past, f, hrun, hshown, abandoned_of_gaveUp hrun hwrote hgave⟩

end Run

end ShardedDelivery
