import ShardedDelivery.Proofs.Pool.Positions

/-! # Progress of a pool

In every pool that a run can come to, the trail is numbered, every handler stands where its stage
says, and every handler has heard of all sequences so far, unless the announcement broke off at it
or before it. -/

namespace ShardedDelivery.Pool

/-- How many sequences a handler has heard of when no announcement has broken off before it. -/
def announcedTo (p : Pool) (i : Nat) : Nat :=
  match p.announcement with
  | some (s, told) => if i < told then s + 1 else s
  | none => p.next

/-- How far everyone in a pool of `n` handlers is. -/
structure Positioned (n : Nat) (p : Pool) (past : Trail) : Prop where
  numbered : past.Numbered
  written : past.events.length = p.next
  stands : ∀ i (w : Worker), p.workers[i]? = some w → w.Stands (past.reached i)
  left : ∀ i (w : Worker), p.workers[i]? = some w → w.stage = .ended → .stopped i ∉ past →
    ∀ φ, past.reached i φ = past.reached i .heard
  heard_le : ∀ i, past.reached i .heard ≤ p.next
  announcing : ∀ s told, p.announcement = some (s, told) → s + 1 = p.next ∧ told ≤ n
  unheard : ∀ s told, p.announcement = some (s, told) → ∀ i, told ≤ i → past.reached i .heard ≤ s
  untold : ∀ s told, p.announcement = some (s, told) → ∀ i t, .gaveUp i t ∈ past → told ≤ i
  heard_eq : ∀ i < n, (∀ j t, .gaveUp j t ∈ past → i < j) →
    past.reached i .heard = p.announcedTo i

namespace Positioned

variable {n : Nat} {p q : Pool} {past deeds : Trail}

theorem new (config : Config) (reporting : Bool) :
    Positioned config.handlers.toNat (.new config reporting) [] where
  numbered := .nil
  written := rfl
  stands := by
    intro i w hw
    simp only [Pool.new, List.getElem?_map, Option.map_eq_some_iff] at hw
    obtain ⟨j, -, rfl⟩ := hw
    exact ⟨by simp [Stage.At], fun _ => rfl, Nat.le_refl _⟩
  left := by simp
  heard_le := by simp
  announcing := by simp [Pool.new, announcement]
  unheard := by simp [Pool.new, announcement]
  untold := by simp
  heard_eq := by simp [Pool.new, announcedTo, announcement]

/-- A handler passes the points of a sequence in order. -/
theorem chain (h : Positioned n p past) (hs : Staffed n p past) {i : Nat} (hi : i < n) :
    past.reached i .done ≤ past.reached i .begun ∧
      past.reached i .begun ≤ past.reached i .released ∧
      past.reached i .released ≤ past.reached i .claimed ∧
      past.reached i .claimed ≤ past.reached i .received ∧
      past.reached i .received ≤ past.reached i .heard := by
  rw [← hs.size] at hi
  have hstands := h.stands i _ (List.getElem?_eq_getElem hi)
  obtain ⟨hdone, hbegun, hreleased, hclaimed, -⟩ := hstands.stage.chain
  exact ⟨hdone, hbegun, hreleased, hclaimed, hstands.received_le⟩

/-- Moves that concern neither the handlers nor the announcement. -/
theorem keep (h : Positioned n p past) (hw : q.workers = p.workers) (hn : q.next = p.next)
    (ha : q.announcement = p.announcement)
    (hd : ∀ x ∈ deeds, ∃ ticket slot, x = .came ticket slot) :
    Positioned n q (past ++ deeds) := by
  have hpassed : ∀ i φ, Trail.passed deeds i φ = [] := by
    intro i φ
    simp only [Trail.passed, List.filterMap_eq_nil_iff]
    intro x hx
    obtain ⟨ticket, slot, rfl⟩ := hd x hx
    rfl
  have hreached : ∀ i, Trail.reached (past ++ deeds) i = past.reached i := fun i =>
    Trail.reached_append_of_passed past (hpassed i)
  have hevents : Trail.events deeds = [] := by
    simp only [Trail.events, List.filterMap_eq_nil_iff]
    intro x hx
    obtain ⟨ticket, slot, rfl⟩ := hd x hx
    rfl
  have hgave : ∀ i t, .gaveUp i t ∈ past ++ deeds ↔ .gaveUp i t ∈ past := by
    intro i t
    simp only [List.mem_append, or_iff_left_iff_imp]
    intro hx
    obtain ⟨ticket, slot, hx⟩ := hd _ hx
    contradiction
  have hannounced : ∀ i, q.announcedTo i = p.announcedTo i := by
    intro i
    simp only [announcedTo, ha, hn]
  exact {
    numbered := h.numbered.append fun i φ => Or.inl (hpassed i φ)
    written := by simp [hevents, h.written, hn]
    stands := by
      intro i w hi
      rw [hreached]
      exact h.stands i w (hw ▸ hi)
    left := by
      intro i w hi he hstop φ
      rw [hreached]
      exact h.left i w (hw ▸ hi) he (fun hx => hstop (List.mem_append_left _ hx)) φ
    heard_le := by simpa only [hreached, hn] using h.heard_le
    announcing := by simpa only [ha, hn] using h.announcing
    unheard := by simpa only [ha, hreached] using h.unheard
    untold := by simpa only [ha, hgave] using h.untold
    heard_eq := by simpa only [hgave, hreached, hannounced] using h.heard_eq }

theorem write (h : Positioned n p past) {ticket : Nat} {slot : Slot} {ring : Ring}
    (hh : p.holder = some ⟨ticket, .writing slot⟩) :
    Positioned n
      { p with ring, next := p.next + 1, holder := some ⟨ticket, .announcing p.next 0⟩ }
      (past ++ [.wrote ticket p.next slot]) := by
  have ha : p.announcement = none := by simp [announcement, hh]
  have hreached : ∀ i, Trail.reached (past ++ [.wrote ticket p.next slot]) i = past.reached i :=
    fun i => Trail.reached_append_of_passed past fun φ => by simp [Trail.passed_cons]
  exact {
    numbered := h.numbered.append fun i φ => Or.inl (by simp [Trail.passed_cons])
    written := by simp [h.written, Deed.event?]
    stands := by simpa only [hreached] using h.stands
    left := by
      intro i w hi he hstop φ
      rw [hreached]
      exact h.left i w hi he (fun hx => hstop (List.mem_append_left _ hx)) φ
    heard_le := by
      intro i
      rw [hreached]
      exact (h.heard_le i).trans (Nat.le_succ _)
    announcing := by
      intro s told hs
      simp only [announcement, Option.some.injEq, Prod.mk.injEq] at hs
      obtain ⟨rfl, rfl⟩ := hs
      exact ⟨rfl, Nat.zero_le _⟩
    unheard := by
      intro s told hs i _
      simp only [announcement, Option.some.injEq, Prod.mk.injEq] at hs
      obtain ⟨rfl, rfl⟩ := hs
      rw [hreached]
      exact h.heard_le i
    untold := by
      intro s told hs i t _
      simp only [announcement, Option.some.injEq, Prod.mk.injEq] at hs
      omega
    heard_eq := by
      intro i hi hgave
      have heq := h.heard_eq i hi (by simpa using hgave)
      simp only [announcedTo, ha] at heq
      simp only [announcedTo, announcement, hreached, heq, Nat.not_lt_zero, if_false] }

/-- While a handler that is there is about to hear of a sequence, it has heard of all before. -/
theorem heard_of_announcement (h : Positioned n p past) (hs : Staffed n p past) {s told : Nat}
    {w : Worker} (ha : p.announcement = some (s, told)) (hw : p.workers[told]? = some w)
    (hg : w.stage ≠ .ended) :
    past.reached told .heard = s ∧ ∀ j t, .gaveUp j t ∈ past → told < j := by
  have htold : told < n := by
    obtain ⟨hlt, -⟩ := List.getElem?_eq_some_iff.mp hw
    rwa [hs.size] at hlt
  have huntold : ∀ j t, .gaveUp j t ∈ past → told < j := by
    intro j t hj
    refine Nat.lt_of_le_of_ne (h.untold s told ha j t hj) ?_
    rintro rfl
    obtain ⟨-, v, hv, he⟩ := hs.gaveUp told t hj
    rw [hw] at hv
    cases hv
    exact hg he
  have heq := h.heard_eq told htold huntold
  exact ⟨by simpa [announcedTo, ha] using heq, huntold⟩

theorem tell (h : Positioned n p past) (hs : Staffed n p past) {ticket s told : Nat} {w : Worker}
    (hh : p.holder = some ⟨ticket, .announcing s told⟩) (hw : p.workers[told]? = some w)
    (hg : w.stage ≠ .ended) :
    Positioned n
      { p with
        workers := p.workers.set told (w.hear s)
        holder := some ⟨ticket, .announcing s (told + 1)⟩ }
      (past ++ [.told told s]) := by
  have ha : p.announcement = some (s, told) := by simp [announcement, hh]
  obtain ⟨hheard, huntold⟩ := h.heard_of_announcement hs ha hw hg
  have hother : ∀ i φ, i ≠ told ∨ φ ≠ .heard →
      Trail.reached (past ++ [.told told s]) i φ = past.reached i φ := by
    intro i φ hne
    have hpass : ¬ (told = i ∧ Phase.heard = φ) := by grind
    simp [Deed.passes, hpass]
  have hself : Trail.reached (past ++ [.told told s]) told .heard = s + 1 := by
    simp [Deed.passes, hheard]
  have hsame : ∀ i, i ≠ told → Trail.reached (past ++ [.told told s]) i = past.reached i :=
    fun i hi => funext fun φ => hother i φ (Or.inl hi)
  exact {
    numbered := by
      refine h.numbered.append fun i φ => ?_
      simp only [Trail.passed_cons, Deed.sequenceAt?_told]
      split
      · rename_i heq
        obtain ⟨rfl, rfl⟩ := heq
        exact Or.inr (by simp [hheard])
      · exact Or.inl rfl
    written := by simpa [Deed.event?] using h.written
    stands := by
      intro i v hv
      rcases eq_or_of_getElem?_set hv with ⟨rfl, rfl⟩ | ⟨hne, hv⟩
      · have hnext : Trail.reached (past ++ [.told i s]) i .heard = past.reached i .heard + 1 := by
          rw [hself, hheard]
        have hstands := (h.stands i w hw).hear hg hnext fun φ hφ => hother i φ (Or.inr hφ)
        rwa [hheard] at hstands
      · rw [hsame i hne]
        exact h.stands i v hv
    left := by
      intro i v hv he hstop φ
      rcases eq_or_of_getElem?_set hv with ⟨rfl, rfl⟩ | ⟨hne, hv⟩
      · exact absurd he hg
      · rw [hsame i hne]
        exact h.left i v hv he (fun hx => hstop (List.mem_append_left _ hx)) φ
    heard_le := by
      intro i
      by_cases hi : i = told
      · subst hi
        rw [hself, (h.announcing s i ha).1]
      · rw [hsame i hi]
        exact h.heard_le i
    announcing := by
      intro s' told' hs'
      simp only [announcement, Option.some.injEq, Prod.mk.injEq] at hs'
      obtain ⟨rfl, rfl⟩ := hs'
      obtain ⟨hlt, -⟩ := List.getElem?_eq_some_iff.mp hw
      exact ⟨(h.announcing s told ha).1, hs.size ▸ hlt⟩
    unheard := by
      intro s' told' hs' i hi
      simp only [announcement, Option.some.injEq, Prod.mk.injEq] at hs'
      obtain ⟨rfl, rfl⟩ := hs'
      rw [hsame i (by omega)]
      exact h.unheard s told ha i (by omega)
    untold := by
      intro s' told' hs' j t hj
      simp only [announcement, Option.some.injEq, Prod.mk.injEq] at hs'
      obtain ⟨rfl, rfl⟩ := hs'
      exact huntold j t (by simpa using hj)
    heard_eq := by
      intro i hi hgave
      have heq := h.heard_eq i hi (by simpa using hgave)
      simp only [announcedTo, ha] at heq
      simp only [announcedTo, announcement]
      by_cases hit : i = told
      · subst hit
        simp [hself]
      · rw [hsame i hit, heq]
        split <;> split <;> omega }

theorem giveUp (h : Positioned n p past) {ticket s told : Nat} (ring : Ring)
    (hh : p.holder = some ⟨ticket, .announcing s told⟩) :
    Positioned n ({ p with ring, running := false }.finish ticket (.error .shutdown))
      (past ++ [.gaveUp told s]) := by
  have ha : p.announcement = some (s, told) := by simp [announcement, hh]
  obtain ⟨hnext, -⟩ := h.announcing s told ha
  have hreached : ∀ i, Trail.reached (past ++ [.gaveUp told s]) i = past.reached i :=
    fun i => Trail.reached_append_of_passed past fun φ => by simp [Trail.passed_cons]
  exact {
    numbered := h.numbered.append fun i φ => Or.inl (by simp [Trail.passed_cons])
    written := by simpa [Deed.event?, Pool.finish] using h.written
    stands := by
      intro i w hi
      rw [hreached]
      exact h.stands i w hi
    left := by
      intro i w hi he hstop φ
      rw [hreached]
      exact h.left i w hi he (fun hx => hstop (List.mem_append_left _ hx)) φ
    heard_le := by
      intro i
      rw [hreached]
      exact h.heard_le i
    announcing := by simp [Pool.finish, announcement]
    unheard := by simp [Pool.finish, announcement]
    untold := by simp [Pool.finish, announcement]
    heard_eq := by
      intro i hi hgave
      have heq := h.heard_eq i hi fun j t hj => hgave j t (List.mem_append_left _ hj)
      have hlt : i < told := hgave told s (by simp)
      simp only [announcedTo, ha, hlt, if_true] at heq
      simp only [announcedTo, announcement, Pool.finish, hreached]
      omega }

theorem finish (h : Positioned n p past) (hs : Staffed n p past) {ticket s told : Nat}
    (hh : p.holder = some ⟨ticket, .announcing s told⟩) (ht : p.workers.length ≤ told) :
    Positioned n (p.finish ticket (.ok s)) past := by
  have ha : p.announcement = some (s, told) := by simp [announcement, hh]
  obtain ⟨hnext, -⟩ := h.announcing s told ha
  rw [hs.size] at ht
  exact {
    numbered := h.numbered
    written := h.written
    stands := h.stands
    left := h.left
    heard_le := h.heard_le
    announcing := by simp [Pool.finish, announcement]
    unheard := by simp [Pool.finish, announcement]
    untold := by simp [Pool.finish, announcement]
    heard_eq := by
      intro i hi hgave
      have heq := h.heard_eq i hi hgave
      have hlt : i < told := by omega
      simp only [announcedTo, ha, hlt, if_true] at heq
      simp only [announcedTo, announcement, Pool.finish]
      omega }

theorem turn (h : Positioned n p past) {i : Nat} {w w' : Worker} {ring : Ring}
    {report : Option Report} (reports : List Report) (hw : p.workers[i]? = some w)
    (ht : w.Turn i p.closed p.ring deeds w' ring report) :
    Positioned n { p with workers := p.workers.set i w', ring, reports } (past ++ deeds) := by
  have hother : ∀ j, j ≠ i → Trail.reached (past ++ deeds) j = past.reached j := by
    intro j hj
    funext φ
    simp [ht.reached_of_ne hj φ]
  have hheard : ∀ j, Trail.reached (past ++ deeds) j .heard = past.reached j .heard := by
    intro j
    simp [ht.reached_heard j]
  have hgave : ∀ j t, .gaveUp j t ∈ past ++ deeds ↔ .gaveUp j t ∈ past := by
    intro j t
    simp [ht.not_mem_deeds.1 j t]
  exact {
    numbered := h.numbered.append fun j φ => ht.passed_eq (h.stands i w hw) j φ
    written := by simp [ht.events_eq, h.written]
    stands := by
      intro j v hv
      rcases eq_or_of_getElem?_set hv with ⟨rfl, rfl⟩ | ⟨hne, hv⟩
      · exact ht.stands_next (h.stands j w hw)
      · rw [hother j hne]
        exact h.stands j v hv
    left := by
      intro j v hv he hstop φ
      rcases eq_or_of_getElem?_set hv with ⟨rfl, rfl⟩ | ⟨hne, hv⟩
      · -- a handler leaves with an empty inbox and nothing in hand
        obtain ⟨-, hidle, hnil, rfl⟩ := ht.closed_of_ended he
        obtain ⟨hstage, hinbox, hle⟩ := h.stands j w hw
        have hempty := hinbox (by simp [hidle])
        rw [hnil, eq_comm, List.range'_eq_nil_iff] at hempty
        simp only [hidle, Stage.At] at hstage
        cases φ <;> simp only [List.append_nil] <;> omega
      · rw [hother j hne]
        exact h.left j v hv he (fun hx => hstop (List.mem_append_left _ hx)) φ
    heard_le := by
      intro j
      rw [hheard]
      exact h.heard_le j
    announcing := h.announcing
    unheard := by
      intro s told ha j hj
      rw [hheard]
      exact h.unheard s told ha j hj
    untold := by
      intro s told ha j t hj
      exact h.untold s told ha j t ((hgave j t).mp hj)
    heard_eq := by
      intro j hj hg
      rw [hheard]
      exact h.heard_eq j hj fun k t hk => hg k t ((hgave k t).mpr hk) }

theorem stop (h : Positioned n p past) {i : Nat} {w : Worker} (hw : p.workers[i]? = some w) :
    Positioned n { p with workers := p.workers.set i w.stop } (past ++ [.stopped i]) := by
  have hreached : ∀ j, Trail.reached (past ++ [.stopped i]) j = past.reached j :=
    fun j => Trail.reached_append_of_passed past fun φ => by simp [Trail.passed_cons]
  exact {
    numbered := h.numbered.append fun j φ => Or.inl (by simp [Trail.passed_cons])
    written := by simpa [Deed.event?] using h.written
    stands := by
      intro j v hv
      rw [hreached]
      rcases eq_or_of_getElem?_set hv with ⟨rfl, rfl⟩ | ⟨-, hv⟩
      · exact (h.stands j w hw).stop
      · exact h.stands j v hv
    left := by
      intro j v hv he hstop φ
      rw [hreached]
      rcases eq_or_of_getElem?_set hv with ⟨rfl, -⟩ | ⟨-, hv⟩
      · exact absurd (by simp) hstop
      · exact h.left j v hv he (fun hx => hstop (List.mem_append_left _ hx)) φ
    heard_le := by simpa only [hreached] using h.heard_le
    announcing := h.announcing
    unheard := by
      intro s told ha j hj
      rw [hreached]
      exact h.unheard s told ha j hj
    untold := by
      intro s told ha j t hj
      exact h.untold s told ha j t (by simpa using hj)
    heard_eq := by
      intro j hj hg
      rw [hreached]
      exact h.heard_eq j hj fun k t hk => hg k t (by simpa using hk) }

theorem move (h : Positioned n p past) (hs : Staffed n p past) (hm : p.Move deeds q) :
    Positioned n q (past ++ deeds) := by
  cases hm with
  | come slot =>
      obtain ⟨waiting, results, heq, -⟩ := p.publish_eq slot
      rw [heq]
      exact h.keep rfl rfl rfl (by simp)
  | acquire ticket slot hh hw => exact h.keep rfl rfl (by simp [announcement, hh]) (by simp)
  | write ticket slot ring hh hr => exact h.write hh
  | tell ticket s told w hh hw hg hroom => exact h.tell hs hh hw hg
  | giveUp ticket s told w hh hw hg => exact h.giveUp _ hh
  | finish ticket s told hh ht => simpa using h.finish hs hh ht
  | withdraw ticket slot hh => exact h.keep rfl rfl (by simp [announcement, hh]) (by simp)
  | withdrawWaiting ticket => exact h.keep rfl rfl rfl (by simp)
  | turn i w _ w' ring report reports hw ht hr => exact h.turn reports hw ht
  | stop i w hw => exact h.stop hw
  | close hp => exact h.keep rfl rfl rfl (by simp)
  | rest => simpa using h

end Positioned

end ShardedDelivery.Pool
