import ShardedDelivery.Proofs.Pool.Positions

/-! # Tickets

Every publisher comes with one event and writes it at most once. Who was told a sequence wrote its
event under it. -/

namespace ShardedDelivery.Pool

/-- The publishers that have not written their events yet, with these. -/
def unwritten (p : Pool) : List (Nat × Slot) :=
  (match p.holder with
    | some ⟨ticket, .writing slot⟩ => [(ticket, slot)]
    | _ => []) ++ p.waiting

theorem unwritten_of_announcing {p : Pool} {ticket s told : Nat}
    (h : p.holder = some ⟨ticket, .announcing s told⟩) : p.unwritten = p.waiting := by
  simp [unwritten, h]

/-- Whoever comes is the last who has not written, or has been turned away. -/
theorem unwritten_publish (p : Pool) (slot : Slot) :
    (p.publish slot).unwritten = p.unwritten ++ [(p.tickets, slot)] ∨
      (p.publish slot).unwritten = p.unwritten := by
  unfold publish
  split
  · left
    simp only [unwritten, List.append_assoc]
  · right
    rfl

theorem mem_results_publish {p : Pool} {slot : Slot} {ticket s : Nat} :
    (ticket, .ok s) ∈ (p.publish slot).results ↔ (ticket, .ok s) ∈ p.results := by
  unfold publish
  split <;> simp

/-- Who has come, who has written what, and who has been told which sequence. -/
structure Ticketed (p : Pool) (past : Trail) : Prop where
  came_lt : ∀ ticket slot, .came ticket slot ∈ past → ticket < p.tickets
  came_eq : ∀ ticket slot slot', .came ticket slot ∈ past → .came ticket slot' ∈ past → slot = slot'
  came : ∀ x ∈ p.unwritten, .came x.1 x.2 ∈ past
  nodup : (p.unwritten.map Prod.fst).Nodup
  fresh : ∀ x ∈ p.unwritten, ∀ s slot, .wrote x.1 s slot ∉ past
  wrote : ∀ ticket s slot, .wrote ticket s slot ∈ past →
    .came ticket slot ∈ past ∧ past.events[s]? = some slot
  event : ∀ s slot, past.events[s]? = some slot → ∃ ticket, .wrote ticket s slot ∈ past
  wrote_eq : ∀ ticket ticket' s s' slot slot', .wrote ticket s slot ∈ past →
    .wrote ticket' s' slot' ∈ past → (ticket = ticket' ↔ s = s')
  announcing : ∀ ticket s told, p.holder = some ⟨ticket, .announcing s told⟩ →
    ∃ slot, .wrote ticket s slot ∈ past
  result : ∀ ticket s, (ticket, .ok s) ∈ p.results → ∃ slot, .wrote ticket s slot ∈ past

namespace Ticketed

variable {p q : Pool} {past deeds : Trail}

theorem new (config : Config) (reporting : Bool) : Ticketed (.new config reporting) [] := by
  constructor <;> simp [Pool.new, unwritten]

/-- Moves of the handlers, and of publishers that do not get further. -/
theorem keep (h : Ticketed p past) (ht : q.tickets = p.tickets)
    (hu : ∀ x ∈ q.unwritten, x ∈ p.unwritten) (hn : (q.unwritten.map Prod.fst).Nodup)
    (hh : ∀ ticket s told, q.holder = some ⟨ticket, .announcing s told⟩ →
      ∃ told', p.holder = some ⟨ticket, .announcing s told'⟩)
    (hr : ∀ ticket s, (ticket, .ok s) ∈ q.results →
      (ticket, .ok s) ∈ p.results ∨ ∃ told, p.holder = some ⟨ticket, .announcing s told⟩)
    (hcame : ∀ ticket slot, .came ticket slot ∉ deeds)
    (hwrote : ∀ ticket s slot, .wrote ticket s slot ∉ deeds) : Ticketed q (past ++ deeds) := by
  have hold : ∀ ticket slot, .came ticket slot ∈ past ++ deeds ↔ .came ticket slot ∈ past := by
    intro ticket slot
    simp [hcame ticket slot]
  have hold' : ∀ ticket s slot,
      .wrote ticket s slot ∈ past ++ deeds ↔ .wrote ticket s slot ∈ past := by
    intro ticket s slot
    simp [hwrote ticket s slot]
  have hevents : Trail.events deeds = [] := by
    simp only [Trail.events, List.filterMap_eq_nil_iff]
    intro x hx
    cases x with
    | wrote ticket s slot => exact absurd hx (hwrote ticket s slot)
    | _ => rfl
  exact {
    came_lt := by simpa only [hold, ht] using h.came_lt
    came_eq := by simpa only [hold] using h.came_eq
    came := by
      intro x hx
      exact (hold x.1 x.2).mpr (h.came x (hu x hx))
    nodup := hn
    fresh := by
      intro x hx s slot hmem
      exact h.fresh x (hu x hx) s slot ((hold' x.1 s slot).mp hmem)
    wrote := by
      intro ticket s slot hmem
      rw [hold, Trail.events_append, hevents, List.append_nil]
      exact h.wrote ticket s slot ((hold' ticket s slot).mp hmem)
    event := by
      intro s slot hevent
      rw [Trail.events_append, hevents, List.append_nil] at hevent
      simpa only [hold'] using h.event s slot hevent
    wrote_eq := by simpa only [hold'] using h.wrote_eq
    announcing := by
      intro ticket s told hq
      obtain ⟨told', hp⟩ := hh ticket s told hq
      simpa only [hold'] using h.announcing ticket s told' hp
    result := by
      intro ticket s hmem
      simp only [hold']
      rcases hr ticket s hmem with hp | ⟨told, hp⟩
      · exact h.result ticket s hp
      · exact h.announcing ticket s told hp }

theorem come (h : Ticketed p past) (slot : Slot) :
    Ticketed (p.publish slot) (past ++ [.came p.tickets slot]) := by
  obtain ⟨htickets, hholder⟩ : (p.publish slot).tickets = p.tickets + 1 ∧
      (p.publish slot).holder = p.holder := by
    obtain ⟨waiting, results, heq, -⟩ := p.publish_eq slot
    rw [heq]
    exact ⟨rfl, rfl⟩
  have hunwritten : ∀ x ∈ (p.publish slot).unwritten,
      x ∈ p.unwritten ∨ x = (p.tickets, slot) := by
    intro x hx
    rcases p.unwritten_publish slot with heq | heq
    · rw [heq] at hx
      simpa using hx
    · exact Or.inl (heq ▸ hx)
  have hnew : ∀ t, .came p.tickets t ∉ past := fun t ht => Nat.lt_irrefl _ (h.came_lt _ t ht)
  have hold' : ∀ ticket s t,
      .wrote ticket s t ∈ past ++ [.came p.tickets slot] ↔ .wrote ticket s t ∈ past := by simp
  exact {
    came_lt := by
      intro ticket t hmem
      rw [htickets]
      rcases List.mem_append.mp hmem with hmem | hmem
      · exact Nat.lt_succ_of_lt (h.came_lt ticket t hmem)
      · simp only [List.mem_singleton, Deed.came.injEq] at hmem
        omega
    came_eq := by
      intro ticket t t' hmem hmem'
      simp only [List.mem_append, List.mem_singleton, Deed.came.injEq] at hmem hmem'
      rcases hmem with hmem | ⟨rfl, rfl⟩ <;> rcases hmem' with hmem' | ⟨hticket, rfl⟩
      · exact h.came_eq ticket t t' hmem hmem'
      · subst hticket
        exact absurd hmem (hnew t)
      · exact absurd hmem' (hnew t')
      · rfl
    came := by
      intro x hx
      rcases hunwritten x hx with hx | rfl
      · exact List.mem_append_left _ (h.came x hx)
      · simp
    nodup := by
      rcases p.unwritten_publish slot with heq | heq
      · rw [heq, List.map_append, List.nodup_append]
        refine ⟨h.nodup, by simp, ?_⟩
        intro ticket hticket other hother hsame
        simp only [List.map_cons, List.map_nil, List.mem_singleton] at hother
        obtain ⟨x, hx, rfl⟩ := List.mem_map.mp hticket
        have hlt := h.came_lt x.1 x.2 (h.came x hx)
        omega
      · rw [heq]
        exact h.nodup
    fresh := by
      intro x hx s t
      rw [hold']
      rcases hunwritten x hx with hx | rfl
      · exact h.fresh x hx s t
      · exact fun hmem => hnew t (h.wrote p.tickets s t hmem).1
    wrote := by
      intro ticket s t hmem
      obtain ⟨hcame, hevent⟩ := h.wrote ticket s t ((hold' ticket s t).mp hmem)
      exact ⟨List.mem_append_left _ hcame, by simpa [Deed.event?] using hevent⟩
    event := by
      intro s t hevent
      simpa only [hold'] using h.event s t (by simpa [Deed.event?] using hevent)
    wrote_eq := by simpa only [hold'] using h.wrote_eq
    announcing := by simpa only [hold', hholder] using h.announcing
    result := by
      intro ticket s hmem
      simpa only [hold'] using h.result ticket s (mem_results_publish.mp hmem) }

theorem write (h : Ticketed p past) (hp : past.events.length = p.next) {ticket : Nat} {slot : Slot}
    (ring : Ring) (hh : p.holder = some ⟨ticket, .writing slot⟩) :
    Ticketed { p with ring, next := p.next + 1, holder := some ⟨ticket, .announcing p.next 0⟩ }
      (past ++ [.wrote ticket p.next slot]) := by
  have hunwritten : p.unwritten = (ticket, slot) :: p.waiting := by simp [unwritten, hh]
  have hold : ∀ t other, .came t other ∈ past ++ [.wrote ticket p.next slot] ↔
      .came t other ∈ past := by simp
  have hnodup := h.nodup
  rw [hunwritten, List.map_cons, List.nodup_cons] at hnodup
  have hfresh := h.fresh (ticket, slot) (by simp [hunwritten])
  have hnumber : ∀ t s other, .wrote t s other ∈ past → s < p.next := by
    intro t s other hmem
    obtain ⟨hlt, -⟩ := List.getElem?_eq_some_iff.mp (h.wrote t s other hmem).2
    omega
  have hmem_wrote : ∀ {t s other}, .wrote t s other ∈ past ++ [.wrote ticket p.next slot] →
      .wrote t s other ∈ past ∨ t = ticket ∧ s = p.next ∧ other = slot := by
    intro t s other hmem
    simpa using hmem
  exact {
    came_lt := by simpa only [hold] using h.came_lt
    came_eq := by simpa only [hold] using h.came_eq
    came := by
      intro x hx
      exact (hold x.1 x.2).mpr (h.came x (by rw [hunwritten]; exact List.mem_cons_of_mem _ hx))
    nodup := hnodup.2
    fresh := by
      intro x hx s other hmem
      have hx' : x ∈ p.waiting := hx
      rcases hmem_wrote hmem with hmem | ⟨heq, -, -⟩
      · exact h.fresh x (by rw [hunwritten]; exact List.mem_cons_of_mem _ hx') s other hmem
      · rw [← heq] at hnodup
        exact hnodup.1 (List.mem_map.mpr ⟨x, hx', rfl⟩)
    wrote := by
      intro t s other hmem
      rw [hold]
      rcases hmem_wrote hmem with hmem | ⟨rfl, rfl, rfl⟩
      · obtain ⟨hcame, hevent⟩ := h.wrote t s other hmem
        refine ⟨hcame, ?_⟩
        have hbefore := hnumber t s other hmem
        rw [← hp] at hbefore
        rw [Trail.events_append, List.getElem?_append_left hbefore]
        exact hevent
      · refine ⟨h.came (t, other) (by simp [hunwritten]), ?_⟩
        rw [← hp, Trail.events_append, List.getElem?_append_right (Nat.le_refl _)]
        simp [Deed.event?]
    event := by
      intro s other hevent
      rw [Trail.events_append, List.getElem?_append] at hevent
      split at hevent
      · obtain ⟨t, hmem⟩ := h.event s other hevent
        exact ⟨t, List.mem_append_left _ hmem⟩
      · rename_i hge
        simp only [Trail.events_cons, Deed.event?, Option.toList_some, Trail.events_nil,
          List.append_nil, List.getElem?_singleton, Option.ite_none_right_eq_some,
          Option.some.injEq] at hevent
        obtain ⟨hzero, rfl⟩ := hevent
        have hs : s = p.next := by omega
        exact ⟨ticket, by simp [hs]⟩
    wrote_eq := by
      intro t t' s s' other other' hmem hmem'
      rcases hmem_wrote hmem with hearlier | ⟨rfl, rfl, rfl⟩
      · rcases hmem_wrote hmem' with hearlier' | ⟨rfl, rfl, rfl⟩
        · exact h.wrote_eq t t' s s' other other' hearlier hearlier'
        · have hlt := hnumber t s other hearlier
          constructor
          · rintro rfl
            exact absurd hearlier (hfresh s other)
          · omega
      · rcases hmem_wrote hmem' with hearlier' | ⟨rfl, rfl, rfl⟩
        · have hlt := hnumber t' s' other' hearlier'
          constructor
          · rintro rfl
            exact absurd hearlier' (hfresh s' other')
          · omega
        · simp
    announcing := by
      intro t s told ht
      simp only [Option.some.injEq, Publisher.mk.injEq, Publishing.announcing.injEq] at ht
      obtain ⟨rfl, rfl, rfl⟩ := ht
      exact ⟨slot, by simp⟩
    result := by
      intro t s hmem
      obtain ⟨other, hwrote⟩ := h.result t s hmem
      exact ⟨other, List.mem_append_left _ hwrote⟩ }

theorem move (h : Ticketed p past) (hp : past.events.length = p.next) (hm : p.Move deeds q) :
    Ticketed q (past ++ deeds) := by
  cases hm with
  | come slot => exact h.come slot
  | acquire ticket slot hh hw =>
      have hunwritten : p.unwritten = p.waiting := by simp [unwritten, hh]
      have hnodup := h.nodup
      rw [hunwritten] at hnodup
      refine h.keep rfl ?_ ?_ (by simp) (fun _ _ hr => Or.inl hr) (by simp) (by simp)
      · intro x hx
        rw [hunwritten]
        rcases List.mem_cons.mp hx with rfl | hx
        · exact hw
        · exact List.mem_of_mem_filter hx
      · simp only [unwritten, List.singleton_append, List.map_cons, List.nodup_cons]
        refine ⟨?_, (List.filter_sublist.map Prod.fst).nodup hnodup⟩
        intro hmem
        obtain ⟨x, hx, heq⟩ := List.mem_map.mp hmem
        simp [heq] at hx
  | write ticket slot ring hh hr => exact h.write hp ring hh
  | tell ticket s told w hh hw hg hroom =>
      have hnodup : (p.waiting.map Prod.fst).Nodup := unwritten_of_announcing hh ▸ h.nodup
      refine h.keep rfl (by simp [unwritten, hh]) hnodup ?_ (fun _ _ hr => Or.inl hr) (by simp)
        (by simp)
      intro t s' told' hq
      simp only [Option.some.injEq, Publisher.mk.injEq, Publishing.announcing.injEq] at hq
      obtain ⟨rfl, rfl, rfl⟩ := hq
      exact ⟨told, hh⟩
  | giveUp ticket s told w hh hw hg =>
      have hnodup : (p.waiting.map Prod.fst).Nodup := unwritten_of_announcing hh ▸ h.nodup
      refine h.keep rfl (by simp [unwritten, hh, Pool.finish]) hnodup (by simp [Pool.finish]) ?_
        (by simp) (by simp)
      intro t s' hr
      exact Or.inl (by simpa [Pool.finish] using hr)
  | finish ticket s told hh ht =>
      have hnodup : (p.waiting.map Prod.fst).Nodup := unwritten_of_announcing hh ▸ h.nodup
      refine h.keep rfl (by simp [unwritten, hh, Pool.finish]) hnodup (by simp [Pool.finish]) ?_
        (by simp) (by simp)
      intro t s' hr
      simp only [Pool.finish, List.mem_append, List.mem_singleton, Prod.mk.injEq,
        Except.ok.injEq] at hr
      rcases hr with hr | ⟨rfl, rfl⟩
      · exact Or.inl hr
      · exact Or.inr ⟨told, hh⟩
  | withdraw ticket slot hh =>
      have hunwritten : p.unwritten = (ticket, slot) :: p.waiting := by simp [unwritten, hh]
      have hnodup := h.nodup
      rw [hunwritten, List.map_cons, List.nodup_cons] at hnodup
      refine h.keep rfl ?_ hnodup.2 (by simp) (fun _ _ hr => Or.inl hr) (by simp) (by simp)
      intro x hx
      rw [hunwritten]
      exact List.mem_cons_of_mem _ hx
  | withdrawWaiting ticket =>
      have hsub : ({ p with waiting := p.waiting.filter (·.1 ≠ ticket) } : Pool).unwritten.Sublist
          p.unwritten := List.Sublist.append (List.Sublist.refl _) List.filter_sublist
      exact h.keep rfl (fun x hx => hsub.subset hx) ((hsub.map Prod.fst).nodup h.nodup)
        (fun _ _ told hq => ⟨told, hq⟩) (fun _ _ hr => Or.inl hr) (by simp) (by simp)
  | turn i w _ w' ring report reports hw ht hr =>
      exact h.keep rfl (fun x hx => hx) h.nodup (fun _ _ told hq => ⟨told, hq⟩)
        (fun _ _ hr => Or.inl hr) ht.not_mem_deeds.2.2.2 ht.not_mem_deeds.2.2.1
  | stop i w hw =>
      exact h.keep rfl (fun x hx => hx) h.nodup (fun _ _ told hq => ⟨told, hq⟩)
        (fun _ _ hr => Or.inl hr) (by simp) (by simp)
  | close hp =>
      exact h.keep rfl (fun x hx => hx) h.nodup (fun _ _ told hq => ⟨told, hq⟩)
        (fun _ _ hr => Or.inl hr) (by simp) (by simp)
  | rest => simpa using h

end Ticketed

end ShardedDelivery.Pool
