import ShardedDelivery.Proofs.Pool.Journal
import ShardedDelivery.Proofs.Pool.Shares

/-! # Order

A handler is through with one sequence before it begins the next one, and a channel has one
handler. So the deliveries of a channel follow one another in the order of their sequences. -/

namespace ShardedDelivery

namespace Deed

/-- Which handler does something for a sequence, and when: there are five moments for each
sequence, and only calls share one. -/
def moment? : Deed → Option (Nat × Nat)
  | begun i s _ => some (i, 5 * s)
  | called i s _ _ => some (i, 5 * s + 1)
  | recorded i s _ => some (i, 5 * s + 2)
  | reported i s _ => some (i, 5 * s + 3)
  | done i s => some (i, 5 * s + 4)
  | _ => none

/-- Which handler sends a delivery, and its sequence. -/
def sent? : Deed → Option (Nat × Nat)
  | called i s _ c => if c.send?.isSome then some (i, s) else none
  | _ => none

/-- What a handler does earlier has an earlier moment, and is sent for an earlier sequence. -/
def Precedes (x y : Deed) : Prop :=
  (∀ i a b, x.moment? = some (i, a) → y.moment? = some (i, b) → a < b ∨ a = b ∧ a % 5 = 1) ∧
    ∀ i s t, x.sent? = some (i, s) → y.sent? = some (i, t) → s < t

theorem moment?_of_sent? {x : Deed} {i s : Nat} (h : x.sent? = some (i, s)) :
    x.moment? = some (i, 5 * s + 1) := by
  cases x with
  | called j t d c =>
      simp only [sent?, Option.ite_none_right_eq_some, Option.some.injEq, Prod.mk.injEq] at h
      obtain ⟨-, rfl, rfl⟩ := h
      rfl
  | _ => contradiction

theorem moment?_of_sequenceAt? {x : Deed} {i s : Nat} (h : x.sequenceAt? i .done = some s) :
    x.moment? = some (i, 5 * s + 4) := by
  rw [sequenceAt?_done_iff.mp h, moment?]

end Deed

theorem Stage.limit_of_busy {stage : Stage} (h : stage.busy? = none) : stage.limit = 0 := by
  cases stage <;> simp_all [Stage.busy?, Stage.limit]

theorem Stage.two_le_limit {stage : Stage} {s : Nat} {d : Delivery}
    (hb : stage.busy? = some (s, d)) : 2 ≤ stage.limit := by
  cases stage <;> simp_all [Stage.busy?, Stage.limit]

/-- What a handler has just counted belongs to the sequence that it is busy with. -/
theorem Stage.eq_of_mem_recording {stage : Stage} {i s : Nat} {d : Delivery} {y : Deed}
    (hb : stage.busy? = some (s, d)) (hy : y ∈ stage.recording i) :
    ∃ report, y = .recorded i s report ∧ stage.limit = 3 := by
  cases stage with
  | recorded s' d' report =>
      cases hb
      exact ⟨report, by simpa [Stage.recording] using hy, rfl⟩
  | _ => simp [Stage.recording] at hy

theorem Trail.reached_done_of_moment? {past deeds : Trail} {i : Nat}
    (h : ∀ x ∈ deeds, ∀ m, x.moment? ≠ some (i, m)) :
    reached (past ++ deeds) i .done = reached past i .done := by
  have hnone : passed deeds i .done = [] := by
    rw [passed, List.filterMap_eq_nil_iff]
    intro x hx
    rw [Option.eq_none_iff_forall_ne_some]
    intro s hs
    exact h x hx _ (Deed.moment?_of_sequenceAt? hs)
  simp [reached, hnone]

namespace Pool

/-- Handlers do one thing after another. -/
structure Orderly (n : Nat) (p : Pool) (past : Trail) : Prop where
  sorted : past.Pairwise Deed.Precedes
  moments : ∀ i (w : Worker), p.workers[i]? = some w → w.stage ≠ .ended →
    ∀ x ∈ past, ∀ m, x.moment? = some (i, m) → m < 5 * past.reached i .done + w.stage.limit
  sends : ∀ i (w : Worker), p.workers[i]? = some w → w.stage ≠ .ended →
    ∃ k ≤ 1, (∀ s d, w.stage.busy? = some (s, d) → w.stage.Serves d k) ∧
      ∀ x ∈ past, ∀ s, x.sent? = some (i, s) → s + k ≤ past.reached i .done
  own : ∀ i s d c, .called i s d c ∈ past → ∀ d', c.send? = some d' → d' = d
  recorded : ∀ i (w : Worker), p.workers[i]? = some w → ∀ s d report,
    w.stage = .recorded s d report → .recorded i s report ∈ past
  finished : ∀ i s d, .done i s ∈ past → past.Assigns n i s d →
    ∃ report, .recorded i s report ∈ past ∧ .reported i s report ∈ past

namespace Orderly

variable {n : Nat} {p q : Pool} {past deeds : Trail}

theorem new (config : Config) (reporting : Bool) :
    Orderly config.handlers.toNat (.new config reporting) [] where
  sorted := .nil
  moments := by simp
  sends := by
    intro i w hw hne
    simp only [Pool.new, List.getElem?_map, Option.map_eq_some_iff] at hw
    obtain ⟨j, -, rfl⟩ := hw
    exact ⟨1, Nat.le_refl 1, by simp [Stage.busy?], by simp⟩
  own := by simp
  recorded := by
    intro i w hw s d report hs
    simp only [Pool.new, List.getElem?_map, Option.map_eq_some_iff] at hw
    obtain ⟨j, -, rfl⟩ := hw
    contradiction
  finished := by simp

/-- What a handler is through with had been assigned to it by then. -/
theorem assigns_of_done (hs : Sound n p past) (hn : 0 < n) {i s : Nat} {d : Delivery}
    (hdone : .done i s ∈ past) (h : Trail.Assigns n (past ++ deeds) i s d) :
    past.Assigns n i s d := by
  obtain ⟨event, hevent, hd, rfl⟩ := h
  have hi := d.subscription.channel.shard_lt_of_pos hn
  have hlt := hs.positioned.numbered.done_iff.mp hdone
  obtain ⟨hdone, hbegun, hreleased, hclaimed, hreceived⟩ := hs.positioned.chain hs.staffed hi
  have hheard := hs.positioned.heard_le (d.subscription.channel.shard n)
  have hlength := hs.positioned.written
  rw [Trail.events_append, List.getElem?_append_left (by omega)] at hevent
  exact ⟨event, hevent, hd, rfl⟩

/-- Moves in which no handler does anything for a delivery. -/
theorem keep (h : Orderly n p past) (hs : Sound n p past) (hn : 0 < n)
    (hw : ∀ (i : Nat) (w : Worker), q.workers[i]? = some w → w.stage ≠ .ended →
      ∃ v : Worker, p.workers[i]? = some v ∧ v.stage ≠ .ended ∧
        (w.stage = v.stage ∨ w.stage.busy? = none ∧ v.stage.busy? = none))
    (hd : ∀ x ∈ deeds, x.moment? = none) : Orderly n q (past ++ deeds) := by
  have hreached : ∀ i, Trail.reached (past ++ deeds) i .done = past.reached i .done := by
    intro i
    refine Trail.reached_done_of_moment? fun x hx m hm => ?_
    simp [hd x hx] at hm
  have hsent : ∀ x ∈ deeds, x.sent? = none := by
    intro x hx
    rw [Option.eq_none_iff_forall_ne_some]
    rintro ⟨i, s⟩ hs
    simpa [hd x hx] using Deed.moment?_of_sent? hs
  have hold : ∀ {x : Deed}, x ∈ past ++ deeds → x.moment? ≠ none → x ∈ past := by
    intro x hx hne
    rcases List.mem_append.mp hx with hx | hx
    · exact hx
    · exact absurd (hd x hx) hne
  exact {
    sorted := by
      refine List.pairwise_append.mpr ⟨h.sorted, ?_, ?_⟩
      · refine List.pairwise_of_forall_mem_list fun x hx y hy => ?_
        simp [Deed.Precedes, hd x hx, hsent x hx]
      · intro x hx y hy
        simp [Deed.Precedes, hd y hy, hsent y hy]
    moments := by
      intro i w hi hne x hx m hm
      obtain ⟨v, hv, hvne, hstage⟩ := hw i w hi hne
      have hlt := h.moments i v hv hvne x (hold hx (by simp [hm])) m hm
      rw [hreached]
      rcases hstage with heq | ⟨hnew, hbefore⟩
      · rwa [heq]
      · rwa [Stage.limit_of_busy hnew, ← Stage.limit_of_busy hbefore]
    sends := by
      intro i w hi hne
      obtain ⟨v, hv, hvne, hstage⟩ := hw i w hi hne
      obtain ⟨k, hk, hserves, hle⟩ := h.sends i v hv hvne
      refine ⟨k, hk, ?_, ?_⟩
      · intro s d hb
        rcases hstage with heq | ⟨hnew, -⟩
        · rw [heq] at hb ⊢
          exact hserves s d hb
        · simp [hnew] at hb
      · intro x hx s hx'
        rw [hreached]
        exact hle x (hold hx (by simp [Deed.moment?_of_sent? hx'])) s hx'
    own := by
      intro i s d c hmem
      exact h.own i s d c (hold hmem (by simp [Deed.moment?]))
    recorded := by
      intro i w hi s d report hst
      obtain ⟨v, hv, -, hstage⟩ := hw i w hi (by simp [hst])
      rcases hstage with heq | ⟨hnew, -⟩
      · exact List.mem_append_left _ (h.recorded i v hv s d report (heq ▸ hst))
      · simp [hst, Stage.busy?] at hnew
    finished := by
      intro i s d hmem hassigns
      have hmem' := hold hmem (by simp [Deed.moment?])
      obtain ⟨report, hrec, hrep⟩ := h.finished i s d hmem' (assigns_of_done hs hn hmem' hassigns)
      exact ⟨report, List.mem_append_left _ hrec, List.mem_append_left _ hrep⟩ }

/-- Moves in which one handler does the next things for a delivery. -/
theorem change (h : Orderly n p past) (hs : Sound n p past) (hn : 0 < n) {i k : Nat}
    {w w' : Worker} (hw : p.workers[i]? = some w) (hne : w.stage ≠ .ended)
    (hq : q.workers = p.workers.set i w') (hdeeds : deeds.Pairwise Deed.Precedes)
    (hsent : ∀ x ∈ past, ∀ s, x.sent? = some (i, s) → s + k ≤ past.reached i .done)
    (hgrow : 5 * past.reached i .done + w.stage.limit ≤
      5 * Trail.reached (past ++ deeds) i .done + w'.stage.limit)
    (hlater : ∀ y ∈ deeds, ∃ b, y.moment? = some (i, b) ∧
      b < 5 * Trail.reached (past ++ deeds) i .done + w'.stage.limit ∧
      (5 * past.reached i .done + w.stage.limit ≤ b ∨
        b % 5 = 1 ∧ 5 * past.reached i .done + w.stage.limit ≤ b + 1))
    (hsends : ∃ k' ≤ 1, (∀ s d, w'.stage.busy? = some (s, d) → w'.stage.Serves d k') ∧
      past.reached i .done + k' ≤ Trail.reached (past ++ deeds) i .done + k ∧
      ∀ y ∈ deeds, ∀ t, y.sent? = some (i, t) →
        past.reached i .done < t + k ∧ t + k' ≤ Trail.reached (past ++ deeds) i .done)
    (hown : ∀ j s d c, .called j s d c ∈ deeds → ∀ d', c.send? = some d' → d' = d)
    (hrecorded : ∀ s d report, w'.stage = .recorded s d report →
      .recorded i s report ∈ past ++ deeds)
    (hfinished : ∀ j s d, .done j s ∈ deeds → Trail.Assigns n (past ++ deeds) j s d →
      ∃ report, .recorded j s report ∈ past ++ deeds ∧ .reported j s report ∈ past ++ deeds) :
    Orderly n q (past ++ deeds) := by
  have hmoments := h.moments i w hw hne
  obtain ⟨k', hk', hserves, hle, hnew⟩ := hsends
  have hsame : ∀ {y : Deed} {j b}, y ∈ deeds → y.moment? = some (j, b) → j = i := by
    intro y j b hy hb
    obtain ⟨b', hb', -⟩ := hlater y hy
    rw [hb', Option.some.injEq, Prod.mk.injEq] at hb
    exact hb.1.symm
  have hreached : ∀ j, j ≠ i → Trail.reached (past ++ deeds) j .done = past.reached j .done :=
    fun j hj => Trail.reached_done_of_moment? fun x hx m hm => hj (hsame hx hm)
  exact {
    sorted := by
      refine List.pairwise_append.mpr ⟨h.sorted, hdeeds, fun x hx y hy => ⟨?_, ?_⟩⟩
      · intro j a b ha hb
        obtain rfl := hsame hy hb
        obtain ⟨b', hb', -, hnext⟩ := hlater y hy
        rw [hb, Option.some.injEq, Prod.mk.injEq] at hb'
        have hlt := hmoments x hx a ha
        omega
      · intro j s t hs ht
        obtain rfl := hsame hy (Deed.moment?_of_sent? ht)
        have hbefore := hsent x hx s hs
        have hafter := hnew y hy t ht
        omega
    moments := by
      intro j v hv hvne x hx m hm
      rw [hq] at hv
      rcases eq_or_of_getElem?_set hv with ⟨rfl, rfl⟩ | ⟨hji, hv⟩
      · rcases List.mem_append.mp hx with hx | hx
        · exact (hmoments x hx m hm).trans_le hgrow
        · obtain ⟨b, hb, hlt, -⟩ := hlater x hx
          rw [hm, Option.some.injEq, Prod.mk.injEq] at hb
          rwa [hb.2]
      · rw [hreached j hji]
        rcases List.mem_append.mp hx with hx | hx
        · exact h.moments j v hv hvne x hx m hm
        · exact absurd (hsame hx hm) hji
    sends := by
      intro j v hv hvne
      rw [hq] at hv
      rcases eq_or_of_getElem?_set hv with ⟨rfl, rfl⟩ | ⟨hji, hv⟩
      · refine ⟨k', hk', hserves, ?_⟩
        intro x hx s hx'
        rcases List.mem_append.mp hx with hx | hx
        · have hbefore := hsent x hx s hx'
          omega
        · exact (hnew x hx s hx').2
      · obtain ⟨k'', hk'', hserves', hsent'⟩ := h.sends j v hv hvne
        refine ⟨k'', hk'', hserves', ?_⟩
        intro x hx s hx'
        rw [hreached j hji]
        rcases List.mem_append.mp hx with hx | hx
        · exact hsent' x hx s hx'
        · exact absurd (hsame hx (Deed.moment?_of_sent? hx')) hji
    own := by
      intro j s d c hmem
      rcases List.mem_append.mp hmem with hmem | hmem
      · exact h.own j s d c hmem
      · exact hown j s d c hmem
    recorded := by
      intro j v hv s d report hst
      rw [hq] at hv
      rcases eq_or_of_getElem?_set hv with ⟨rfl, rfl⟩ | ⟨-, hv⟩
      · exact hrecorded s d report hst
      · exact List.mem_append_left _ (h.recorded j v hv s d report hst)
    finished := by
      intro j s d hmem hassigns
      rcases List.mem_append.mp hmem with hmem | hmem
      · obtain ⟨report, hrec, hrep⟩ := h.finished j s d hmem (assigns_of_done hs hn hmem hassigns)
        exact ⟨report, List.mem_append_left _ hrec, List.mem_append_left _ hrep⟩
      · exact hfinished j s d hmem hassigns }

section Turns

variable {i k s : Nat} {w w' : Worker} {d : Delivery} {slot : Slot}

/-- Turns in which a handler is not busy with a delivery. -/
theorem idle (h : Orderly n p past) (hs : Sound n p past) (hn : 0 < n)
    (hw : p.workers[i]? = some w) (hne : w.stage ≠ .ended) (hq : q.workers = p.workers.set i w')
    (hbefore : w.stage.busy? = none) (hafter : w'.stage.busy? = none)
    (hd : ∀ x ∈ deeds, x.moment? = none) : Orderly n q (past ++ deeds) := by
  refine h.keep hs hn ?_ hd
  intro j v hv hvne
  rw [hq] at hv
  rcases eq_or_of_getElem?_set hv with ⟨rfl, rfl⟩ | ⟨-, hv⟩
  · exact ⟨w, hw, hne, Or.inr ⟨hafter, hbefore⟩⟩
  · exact ⟨v, hv, hvne, Or.inl rfl⟩

/-- A handler begins a delivery. -/
theorem begin (h : Orderly n p past) (hs : Sound n p past) (hn : 0 < n)
    (hw : p.workers[i]? = some w) (hq : q.workers = p.workers.set i w') {plan : Plan}
    (hst : w.stage = .released s slot) (hst' : w'.stage = .dispatching s d plan)
    (hplan : plan.Serves d 1) : Orderly n q (past ++ [.begun i s slot]) := by
  have hne : w.stage ≠ .ended := by simp [hst]
  have hstage := (hs.positioned.stands i w hw).stage
  simp only [hst, Stage.At] at hstage
  have hdone : Trail.reached (past ++ [.begun i s slot]) i .done = s := by
    simp [Deed.passes, hstage]
  have hbefore : 5 * past.reached i .done + w.stage.limit = 5 * s := by
    rw [hstage.2.2.2.2, hst]
    rfl
  have hafter : 5 * s + w'.stage.limit = 5 * s + 2 := by rw [hst', Stage.limit]
  -- all sends so far were for sequences that the handler is through with
  have hsent : ∀ x ∈ past, ∀ t, x.sent? = some (i, t) → t + 1 ≤ past.reached i .done := by
    intro x hx t ht
    have hlt := h.moments i w hw hne x hx _ (Deed.moment?_of_sent? ht)
    omega
  refine h.change hs hn hw hne hq (List.pairwise_singleton _ _) hsent ?_ ?_ ?_ (by simp)
    (by simp [hst']) (by simp)
  · rw [hdone]
    omega
  · intro y hy
    rw [hdone, List.mem_singleton.mp hy]
    exact ⟨5 * s, rfl, by omega, Or.inl (by omega)⟩
  · refine ⟨1, Nat.le_refl 1, ?_, by omega, by simp [Deed.sent?]⟩
    intro t d' hb
    rw [hst'] at hb ⊢
    cases hb
    exact hplan

variable (w') in
/-- A handler goes on with a delivery. -/
theorem work (h : Orderly n p past) (hs : Sound n p past) (hn : 0 < n)
    (hw : p.workers[i]? = some w) (hq : q.workers = p.workers.set i w') {calls : List Call}
    (hst : w.stage.busy? = some (s, d)) (hlimit : w.stage.limit = 2)
    (hb : w'.stage.busy? = some (s, d)) (hc : calls.length ≤ 1)
    (hcalls : ∀ k, w.stage.Serves d k → ∃ k', k' + (calls.filterMap Call.send?).length ≤ k ∧
      (∀ d' ∈ calls.filterMap Call.send?, d' = d) ∧ w'.stage.Serves d k') :
    Orderly n q (past ++ (calls.map (.called i s d) ++ w'.stage.recording i)) := by
  have hne : w.stage ≠ .ended := by
    intro he
    simp [he, Stage.busy?] at hst
  obtain ⟨k, hk, hserves, hsent⟩ := h.sends i w hw hne
  obtain ⟨k', hk', hown, hserves'⟩ := hcalls k (hserves s d hst)
  have hstage := (hs.positioned.stands i w hw).stage
  rw [Stage.at_of_busy hst] at hstage
  have hdone : Trail.reached (past ++ (calls.map (.called i s d) ++ w'.stage.recording i)) i .done
      = s := by
    simp [hstage]
  have hlimit' := Stage.two_le_limit hb
  refine h.change hs hn hw hne hq ?_ hsent ?_ ?_ ?_ ?_ ?_ ?_
  · refine List.pairwise_append.mpr ⟨?_, ?_, ?_⟩
    · cases calls with
      | nil => exact .nil
      | cons c rest =>
          rw [List.length_cons] at hc
          rw [List.eq_nil_of_length_eq_zero (by omega : rest.length = 0)]
          exact List.pairwise_singleton _ _
    · cases w'.stage <;> simp [Stage.recording]
    · intro x hx y hy
      obtain ⟨c, -, rfl⟩ := List.mem_map.mp hx
      obtain ⟨report, rfl, -⟩ := Stage.eq_of_mem_recording hb hy
      refine ⟨fun j a b ha hb => ?_, by simp [Deed.sent?]⟩
      simp only [Deed.moment?, Option.some.injEq, Prod.mk.injEq] at ha hb
      omega
  · rw [hdone, hstage.2.2.2.2, hlimit]
    exact Nat.add_le_add_left hlimit' _
  · intro y hy
    rw [hdone, hstage.2.2.2.2, hlimit]
    rcases List.mem_append.mp hy with hy | hy
    · obtain ⟨c, -, rfl⟩ := List.mem_map.mp hy
      exact ⟨_, rfl, Nat.add_lt_add_left hlimit' _, Or.inr ⟨by omega, by omega⟩⟩
    · obtain ⟨report, rfl, hthree⟩ := Stage.eq_of_mem_recording hb hy
      refine ⟨_, rfl, ?_, Or.inl (by omega)⟩
      rw [hthree]
      omega
  · rw [hdone, hstage.2.2.2.2]
    refine ⟨k', by omega, ?_, by omega, ?_⟩
    · intro t d' hb'
      rw [hb, Option.some.injEq, Prod.mk.injEq] at hb'
      exact hb'.2 ▸ hserves'
    · intro y hy t ht
      rcases List.mem_append.mp hy with hy | hy
      · obtain ⟨c, hmem, rfl⟩ := List.mem_map.mp hy
        simp only [Deed.sent?, Option.ite_none_right_eq_some, Option.some.injEq,
          Prod.mk.injEq] at ht
        obtain ⟨hsome, -, rfl⟩ := ht
        obtain ⟨d', hd'⟩ := Option.isSome_iff_exists.mp hsome
        have hpos := List.length_pos_of_mem (List.mem_filterMap.mpr ⟨c, hmem, hd'⟩)
        omega
      · obtain ⟨report, rfl, -⟩ := Stage.eq_of_mem_recording hb hy
        simp [Deed.sent?] at ht
  · intro j t d' c hmem d'' hd''
    rcases List.mem_append.mp hmem with hmem | hmem
    · obtain ⟨c', hc', heq⟩ := List.mem_map.mp hmem
      cases heq
      exact hown d'' (List.mem_filterMap.mpr ⟨c, hc', hd''⟩)
    · obtain ⟨report, heq, -⟩ := Stage.eq_of_mem_recording hb hmem
      contradiction
  · intro t d' report hstage'
    refine List.mem_append_right _ (List.mem_append_right _ ?_)
    rw [hstage'] at hb ⊢
    cases hb
    simp [Stage.recording]
  · intro j t d' hmem
    rcases List.mem_append.mp hmem with hmem | hmem
    · simp at hmem
    · obtain ⟨report, heq, -⟩ := Stage.eq_of_mem_recording hb hmem
      contradiction

/-- With one more deed, a handler is through with a sequence. -/
theorem conclude (h : Orderly n p past) (hs : Sound n p past) (hn : 0 < n)
    (hw : p.workers[i]? = some w) (hq : q.workers = p.workers.set i w') (hne : w.stage ≠ .ended)
    (hst' : w'.stage = .idle) {x : Deed} {m : Nat} (hx : x.moment? = some (i, m))
    (hlimit : 5 * s + w.stage.limit ≤ m) (hm : m < 5 * s + 4) (hsent : x.sent? = none)
    (hcalled : ∀ j t d c, x ≠ .called j t d c) (hbefore : past.reached i .done = s)
    (hdone : Trail.reached (past ++ [x, .done i s]) i .done = s + 1)
    (hfinished : ∀ d, Trail.Assigns n (past ++ [x, .done i s]) i s d →
      ∃ report, .recorded i s report ∈ past ++ [x, .done i s] ∧
        .reported i s report ∈ past ++ [x, .done i s])
    (hnot : ∀ j t, x ≠ .done j t) : Orderly n q (past ++ [x, .done i s]) := by
  obtain ⟨k, hk, -, hsends⟩ := h.sends i w hw hne
  have hafter : w'.stage.limit = 0 := Stage.limit_of_busy (by rw [hst']; rfl)
  refine h.change hs hn hw hne hq ?_ hsends ?_ ?_ ?_ ?_ (by simp [hst']) ?_
  · refine List.pairwise_pair.mpr ⟨fun j a b ha hb => ?_, by simp [hsent]⟩
    rw [hx, Option.some.injEq, Prod.mk.injEq] at ha
    simp only [Deed.moment?, Option.some.injEq, Prod.mk.injEq] at hb
    omega
  · rw [hdone, hbefore]
    omega
  · intro y hy
    rw [hdone, hbefore, hafter]
    rcases List.mem_pair.mp hy with rfl | rfl
    · exact ⟨m, hx, by omega, Or.inl hlimit⟩
    · exact ⟨5 * s + 4, rfl, by omega, Or.inl (by omega)⟩
  · refine ⟨1, Nat.le_refl 1, by simp [hst', Stage.busy?], by omega, ?_⟩
    intro y hy t ht
    rcases List.mem_pair.mp hy with rfl | rfl
    · rw [hsent] at ht
      contradiction
    · contradiction
  · intro j t d c hmem
    rcases List.mem_pair.mp hmem with heq | heq
    · exact absurd heq.symm (hcalled j t d c)
    · contradiction
  · intro j t d hmem hassigns
    rcases List.mem_pair.mp hmem with heq | heq
    · exact absurd heq.symm (hnot j t)
    · cases heq
      exact hfinished d hassigns

end Turns

theorem turn (h : Orderly n p past) (hs : Sound n p past) (hn : 0 < n) {i : Nat} {w w' : Worker}
    {ring : Ring} {report : Option Report} (reports : List Report) (hw : p.workers[i]? = some w)
    (ht : w.Turn i p.closed p.ring deeds w' ring report) :
    Orderly n { p with workers := p.workers.set i w', ring, reports } (past ++ deeds) := by
  have hne := ht.stage_ne
  have hstage := (hs.positioned.stands i w hw).stage
  cases ht with
  | receive s rest hst hin =>
      exact h.idle hs hn hw hne rfl (by simp [hst, Stage.busy?]) rfl (by simp [Deed.moment?])
  | leave hst hin hc =>
      exact h.idle hs hn hw hne rfl (by simp [hst, Stage.busy?]) rfl (by simp)
  | claim s hst =>
      exact h.idle hs hn hw hne rfl (by simp [hst, Stage.busy?]) rfl (by simp [Deed.moment?])
  | release s slot hst =>
      exact h.idle hs hn hw hne rfl (by simp [hst, Stage.busy?]) rfl (by simp [Deed.moment?])
  | pass s slot handler hst hc hh =>
      simp only [hst, Stage.At] at hstage
      have hlimit : w.stage.limit = 0 := Stage.limit_of_busy (by rw [hst]; rfl)
      refine h.conclude hs hn hw rfl hne rfl rfl (by omega) (by omega) rfl (by simp)
        hstage.2.2.2.2 (by simp [Deed.passes, hstage]) ?_ (by simp)
      -- what was passed on did not fall to the handler
      intro d hassigns
      have hshare := hs.shared.stages i w hw
      rw [hst] at hshare
      obtain ⟨event, hevent, rfl⟩ := hshare
      obtain ⟨event', hevent', hd, hi⟩ := hassigns
      have heq : event = event' := by simpa [Deed.event?, hevent] using hevent'
      subst heq
      have hfalls : event.fallsTo n i := Slot.fallsTo_iff.mpr ⟨d, hd, hi⟩
      have hnot := Handler.not_fallsTo (hs.staffed.role i w hw) hc
      rw [Slot.shareOf, if_pos hfalls] at hnot
      exact absurd hfalls hnot
  | begin s slot d handler plan hst hc hh hplan => exact h.begin hs hn hw rfl hst rfl hplan
  | work s d handler stage calls hst hlimit hb hh hc hr hcalls =>
      exact h.work { w with handler, stage } hs hn hw rfl hst hlimit hb hc hcalls
  | report s d report hst =>
      simp only [hst, Stage.At] at hstage
      have hlimit : w.stage.limit = 3 := by rw [hst, Stage.limit]
      refine h.conclude hs hn hw rfl hne rfl rfl (by omega) (by omega) rfl (by simp)
        hstage.2.2.2.2 (by simp [Deed.passes, hstage]) ?_ (by simp)
      intro d' hassigns
      exact ⟨report, List.mem_append_left _ (h.recorded i w hw s d report hst), by simp⟩

theorem move (h : Orderly n p past) (hs : Sound n p past) (hn : 0 < n) (hm : p.Move deeds q) :
    Orderly n q (past ++ deeds) := by
  cases hm with
  | come slot =>
      obtain ⟨waiting, results, heq, -⟩ := p.publish_eq slot
      rw [heq]
      exact h.keep hs hn (fun i w hw hne => ⟨w, hw, hne, Or.inl rfl⟩) (by simp [Deed.moment?])
  | tell ticket s told w hh hw hg hroom =>
      refine h.keep hs hn ?_ (by simp [Deed.moment?])
      intro i v hv hne
      rcases eq_or_of_getElem?_set hv with ⟨rfl, rfl⟩ | ⟨-, hv⟩
      · exact ⟨w, hw, hg, Or.inl rfl⟩
      · exact ⟨v, hv, hne, Or.inl rfl⟩
  | turn i w _ w' ring report reports hw ht hr => exact h.turn hs hn reports hw ht
  | stop i w hw =>
      refine h.keep hs hn ?_ (by simp [Deed.moment?])
      intro j v hv hne
      rcases eq_or_of_getElem?_set hv with ⟨rfl, rfl⟩ | ⟨-, hv⟩
      · exact absurd rfl hne
      · exact ⟨v, hv, hne, Or.inl rfl⟩
  | rest => simpa using h
  | _ => exact h.keep hs hn (fun i w hw hne => ⟨w, hw, hne, Or.inl rfl⟩) (by simp [Deed.moment?])

/-- What has an earlier moment is earlier on the trail. -/
theorem mem_before (h : Orderly n p past) {before after : Trail} {x y : Deed} {i a b : Nat}
    (hpast : past = before ++ y :: after) (hx : x ∈ past) (ha : x.moment? = some (i, a))
    (hb : y.moment? = some (i, b)) (hlt : a < b) : x ∈ before := by
  have hsorted := h.sorted
  rw [hpast, List.pairwise_append, List.pairwise_cons] at hsorted
  rw [hpast, List.mem_append, List.mem_cons] at hx
  rcases hx with hx | rfl | hx
  · exact hx
  · rw [ha, Option.some.injEq, Prod.mk.injEq] at hb
    omega
  · have hprecedes := (hsorted.2.1.1 x hx).1 i b a hb ha
    omega

end Orderly

end Pool

namespace Deed

/-- The sequence of a delivery that is dealt with. -/
def delivers? : Deed → Option Nat
  | called _ s _ _ | recorded _ s _ | reported _ s _ => some s
  | _ => none

end Deed

/-- Whether a call sends something on a channel. -/
def Call.sendsOn (c : ChannelId) (call : Call) : Bool :=
  call.send?.any fun d => d.subscription.channel = c

namespace Run

variable {σ : Type} {e : Environment σ} {rely : Site σ → Site σ → Prop} {config : Config}
  {reporting : Bool} {scene : Scene σ} {past : Trail} {f : Floor σ}

theorem orderly (h : Run e rely (.opening config reporting scene) past f) :
    f.pool.Orderly config.handlers.toNat past := by
  have hpos : 0 < config.handlers.toNat := config.handlers_pos
  have hboth : f.pool.Sound config.handlers.toNat past ∧
      f.pool.Orderly config.handlers.toNat past := by
    refine h.invariant
      (I := fun p past => p.Sound config.handlers.toNat past ∧
        p.Orderly config.handlers.toNat past)
      ⟨.new config reporting, .new config reporting⟩ ?_
    rintro p past deeds q ⟨hs, ho⟩ hm
    exact ⟨hs.move hm, ho.move hs hpos hm⟩
  exact hboth.2

/-- Of two deliveries on one channel, the one with the lower sequence has been counted and
reported before the other one begins, and nothing is done for it afterwards. -/
theorem completed_before (h : Run e rely (.opening config reporting scene) past f)
    {before after : Trail} {i j s t : Nat} {slot slot' : Slot} {d d' : Delivery}
    (hpast : past = before ++ .begun j t slot' :: after) (hbegun : .begun i s slot ∈ past)
    (hd : slot.delivery = some d) (hd' : slot'.delivery = some d')
    (hc : d.subscription.channel = d'.subscription.channel) (hlt : s < t) :
    (∃ report, .recorded i s report ∈ before ∧ .reported i s report ∈ before) ∧
      ∀ x ∈ after, x.delivers? ≠ some s := by
  have hs := h.sound
  have ho := h.orderly
  have hbegun' : .begun j t slot' ∈ past := by simp [hpast]
  have hassigns := (Trail.Shares.assigns (hs.shared.deeds _ hbegun) hd).1
  have hassigns' := (Trail.Shares.assigns (hs.shared.deeds _ hbegun') hd').1
  obtain rfl : i = j := by
    obtain ⟨-, -, -, rfl⟩ := hassigns
    obtain ⟨-, -, -, rfl⟩ := hassigns'
    rw [hc]
  have hi : i < config.handlers.toNat := by
    have hpos : 0 < config.handlers.toNat := config.handlers_pos
    obtain ⟨-, -, -, rfl⟩ := hassigns
    exact d.subscription.channel.shard_lt_of_pos hpos
  -- to begin the later one, the handler must be through with the earlier one
  have hdone : .done i s ∈ past := by
    rw [← hs.staffed.size] at hi
    have hbegan := hs.positioned.numbered.begun_iff.mp ⟨slot', hbegun'⟩
    obtain ⟨-, hreleased, hclaimed, hreceived, hone⟩ :=
      (hs.positioned.stands i _ (List.getElem?_eq_getElem hi)).stage.chain
    rw [hs.positioned.numbered.done_iff]
    omega
  obtain ⟨report, hrec, hrep⟩ := ho.finished i s d hdone hassigns
  refine ⟨⟨report, ?_, ?_⟩, ?_⟩
  · exact ho.mem_before hpast hrec rfl rfl (by omega)
  · exact ho.mem_before hpast hrep rfl rfl (by omega)
  · intro x hx hdelivers
    have hmem : x ∈ past := by simp [hpast, hx]
    have hsorted := ho.sorted
    rw [hpast, List.pairwise_append, List.pairwise_cons] at hsorted
    have hprecedes := (hsorted.2.1.1 x hx).1 i (5 * t)
    cases x with
    | called j u d'' c =>
        cases hdelivers
        obtain ⟨-, rfl⟩ := hassigns.eq (hs.shared.deeds _ hmem)
        have hlate := hprecedes _ rfl rfl
        omega
    | recorded j u report' =>
        cases hdelivers
        obtain ⟨d'', hd'', -⟩ := hs.shared.deeds _ hmem
        obtain ⟨-, rfl⟩ := hassigns.eq hd''
        have hlate := hprecedes _ rfl rfl
        omega
    | reported j u report' =>
        cases hdelivers
        obtain ⟨d'', hd'', -⟩ := hs.shared.deeds _ hmem
        obtain ⟨-, rfl⟩ := hassigns.eq hd''
        have hlate := hprecedes _ rfl rfl
        omega
    | _ => contradiction

/-- The deliveries of a channel are sent in the order of their sequences. -/
theorem sends_sorted (h : Run e rely (.opening config reporting scene) past f) (c : ChannelId) :
    ((past.calls.filter (·.2.sendsOn c)).map Prod.fst).Pairwise (· < ·) := by
  have hs := h.sound
  have ho := h.orderly
  -- a handler that sends on the channel is the one that the channel falls to
  have hsent : ∀ x ∈ past, ∀ call, x.call? = some call → call.2.sendsOn c →
      x.sent? = some (c.shard config.handlers.toNat, call.1) := by
    intro x hx call hcall hc
    cases x with
    | called i s d c' =>
        cases hcall
        obtain ⟨d', hd', hon⟩ := (Option.any_eq_true _ _).mp hc
        obtain rfl := ho.own i s d c' hx d' hd'
        obtain ⟨-, -, -, rfl⟩ := hs.shared.deeds _ hx
        simp only [decide_eq_true_eq] at hon
        simp only [Deed.sent?, hd', Option.isSome_some, if_true, hon]
    | _ => contradiction
  rw [List.pairwise_map, List.pairwise_filter, Trail.calls, List.pairwise_filterMap]
  refine ho.sorted.imp_of_mem ?_
  intro x y hx hy hprecedes a ha b hb hca hcb
  exact hprecedes.2 _ _ _ (hsent x hx a ha hca) (hsent y hy b hb hcb)

/-- The reports of a channel are sent in the order of their sequences. -/
theorem reports_sorted (h : Run e rely (.opening config reporting scene) past f) (c : ChannelId) :
    ((past.reports.filter (·.2.channel = c)).map Prod.fst).Pairwise (· < ·) := by
  have hs := h.sound
  have hmoment : ∀ x ∈ past, ∀ report, x.report? = some report → report.2.channel = c →
      x.moment? = some (c.shard config.handlers.toNat, 5 * report.1 + 3) := by
    intro x hx report hreport hc
    cases x with
    | reported i s report' =>
        cases hreport
        obtain ⟨d, ⟨-, -, -, rfl⟩, hof⟩ := hs.shared.deeds _ hx
        rw [Deed.moment?, ← hc, hof.1]
    | _ => contradiction
  rw [List.pairwise_map, List.pairwise_filter, Trail.reports, List.pairwise_filterMap]
  refine h.orderly.sorted.imp_of_mem ?_
  intro x y hx hy hprecedes a ha b hb hca hcb
  have hlt := hprecedes.1 _ _ _ (hmoment x hx a ha (by simpa using hca))
    (hmoment y hy b hb (by simpa using hcb))
  omega

/-- Whatever happens, the deliveries of a channel are dealt with one after another, in the order of
their sequences. So the calls that the journal of the scene gains, which are those on the trail,
send on the channel in this order, and the reports about the channel come in this order as well. -/
theorem channel_order (h : Run e rely (.opening config reporting scene) past f) :
    (∀ before after i j s t slot slot' d d', past = before ++ .begun j t slot' :: after →
      .begun i s slot ∈ past → slot.delivery = some d → slot'.delivery = some d' →
      d.subscription.channel = d'.subscription.channel → s < t →
        (∃ report, .recorded i s report ∈ before ∧ .reported i s report ∈ before) ∧
          ∀ x ∈ after, x.delivers? ≠ some s) ∧
    (f.scene.calls = scene.calls ++ past.calls.map Prod.snd ∧
      ∀ c, ((past.calls.filter (·.2.sendsOn c)).map Prod.fst).Pairwise (· < ·)) ∧
    (f.pool.reports = if reporting then past.reports.map Prod.snd else []) ∧
      ∀ c, ((past.reports.filter (·.2.channel = c)).map Prod.fst).Pairwise (· < ·) := by
  refine ⟨?_, ⟨h.calls_eq, h.sends_sorted⟩, h.reports_eq, h.reports_sorted⟩
  intro before after i j s t slot slot' d d' hpast hbegun hd hd' hc hlt
  exact h.completed_before hpast hbegun hd hd' hc hlt

/-- Two deliveries on each of two channels are sent and reported in order, although the reports of
both channels together do not come in the order of the sequences. -/
theorem channel_order_rehearsal : ∃ past f,
    Run (Scripted.environment false) (fun _ _ => False) Rehearsal.opening past f ∧
      past.reports.map Prod.fst = [1, 0, 3, 2] ∧ f.pool.reports = past.reports.map Prod.snd ∧
      (∀ n < 2, (past.calls.filter (·.2.sendsOn (Rehearsal.event n).subscription.channel)).map
        Prod.fst = [n, n + 2]) ∧
      (∀ c, ((past.calls.filter (·.2.sendsOn c)).map Prod.fst).Pairwise (· < ·)) ∧
      (∀ c, ((past.reports.filter (·.2.channel = c)).map Prod.fst).Pairwise (· < ·)) ∧
      ∃ before after, past = before ++ .begun 0 2 (.holding (Rehearsal.event 2) false) :: after ∧
        (∃ report, .recorded 0 0 report ∈ before ∧ .reported 0 0 report ∈ before) ∧
        ∀ x ∈ after, x.delivers? ≠ some 0 := by
  obtain ⟨past, f, hrun, hreported, hsent, hfirst, hsecond⟩ := Rehearsal.exists_run
    Rehearsal.opening Rehearsal.relay
    (P := fun past _ => past.reports.map Prod.fst = [1, 0, 3, 2] ∧
      (∀ n ∈ List.range 2, (past.calls.filter
        (·.2.sendsOn (Rehearsal.event n).subscription.channel)).map Prod.fst = [n, n + 2]) ∧
      .begun 0 0 (.holding (Rehearsal.event 0) false) ∈ past ∧
      .begun 0 2 (.holding (Rehearsal.event 2) false) ∈ past)
    (by decide +kernel)
  obtain ⟨hcompleted, ⟨-, hsends⟩, hreports, hsorted⟩ := channel_order hrun
  obtain ⟨before, after, hpast⟩ := List.append_of_mem hsecond
  refine ⟨past, f, hrun, hreported, hreports, ?_, hsends, hsorted, before, after, hpast, ?_⟩
  · exact fun n hn => hsent n (List.mem_range.mpr hn)
  · exact hcompleted before after 0 0 0 2 _ _ _ _ hpast hfirst rfl rfl rfl (by decide)

end Run

end ShardedDelivery
