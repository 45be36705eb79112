import Mathlib.Data.Finset.Card
import Mathlib.Order.Interval.Finset.Nat
import ShardedDelivery.Proofs.Pool.Progress

/-! # The places of the ring

A handler holds a sequence from its announcement until it has released it. The count of a place is
the number of handlers that hold the sequence written there last, so a place is written anew only
when nobody holds it, and whoever looks into it finds its own event or nothing. -/

namespace ShardedDelivery

namespace Slot

/-- Whether the slot's delivery falls to handler `i` of `n`. -/
def fallsTo (n i : Nat) (slot : Slot) : Bool :=
  slot.delivery.any fun d => d.subscription.channel.shard n = i

/-- What handler `i` of `n` gets of an event. -/
def shareOf (n i : Nat) (slot : Slot) : Slot := if slot.fallsTo n i then slot else .empty

theorem fallsTo_iff {n i : Nat} {slot : Slot} :
    slot.fallsTo n i ↔ ∃ d, slot.delivery = some d ∧ d.subscription.channel.shard n = i := by
  simp [fallsTo, Option.any_eq_true]

theorem eq_of_fallsTo {n i j : Nat} {slot : Slot} (hi : slot.fallsTo n i) (hj : slot.fallsTo n j) :
    i = j := by
  obtain ⟨d, hd, rfl⟩ := fallsTo_iff.mp hi
  obtain ⟨d', hd', rfl⟩ := fallsTo_iff.mp hj
  rw [hd] at hd'
  cases hd'
  rfl

theorem lt_of_fallsTo {n i j : Nat} {slot : Slot} (h : slot.fallsTo n i) (hj : j < n) : i < n := by
  obtain ⟨d, -, rfl⟩ := fallsTo_iff.mp h
  exact d.subscription.channel.shard_lt_of_pos (Nat.zero_lt_of_lt hj)

end Slot

namespace Handler

variable {h : Handler} {i n : Nat} {queue : String}

theorem owns_eq (hr : h.role = (i, n, queue)) : h.owns = Slot.fallsTo n i := by
  funext slot
  simp only [role, Prod.mk.injEq] at hr
  have hs : h.serves = fun d => decide (d.subscription.channel.shard n = i) := by
    funext d
    rw [serves, hr.1, hr.2.1]
  rw [owns, Slot.fallsTo, hs]

theorem claim?_eq_some {d : Delivery} {slot : Slot} (hr : h.role = (i, n, queue))
    (hc : h.claim? slot = some d) : slot.delivery = some d ∧ slot.fallsTo n i := by
  simp only [role, Prod.mk.injEq] at hr
  simp only [claim?, Option.filter_eq_some_iff, serves, hr.1, hr.2.1] at hc
  exact ⟨hc.1, Slot.fallsTo_iff.mpr ⟨d, hc.1, by simpa using hc.2⟩⟩

/-- A delivery that falls to a handler is claimed when it is shown. -/
theorem not_fallsTo {slot : Slot} (hr : h.role = (i, n, queue)) (hc : h.claim? slot = none) :
    ¬ slot.fallsTo n i := by
  intro hfalls
  rw [← owns_eq hr] at hfalls
  obtain ⟨d, hd, hserves⟩ := (Option.any_eq_true _ _).mp hfalls
  rw [claim?, hd, Option.filter_some_pos hserves] at hc
  contradiction

end Handler

namespace Pool

/-- The sequences whose places have not been written again. -/
def Current (p : Pool) (t : Nat) : Prop := t < p.next ∧ p.next ≤ t + p.ring.capacity

/-- The publisher has a sequence still to announce to this handler. -/
def owes (p : Pool) (i t : Nat) : Bool :=
  p.announcement.any fun (s, told) => s = t && told ≤ i

/-- A handler has a sequence still to release. -/
def Holds (p : Pool) (past : Trail) (i t : Nat) : Prop :=
  past.reached i .released ≤ t ∧ (t < past.reached i .heard ∨ p.owes i t)

instance (p : Pool) (past : Trail) (i t : Nat) : Decidable (p.Holds past i t) :=
  inferInstanceAs (Decidable (_ ∧ (_ ∨ _)))

/-- The handlers among `n` that hold a sequence. -/
def holders (n : Nat) (p : Pool) (past : Trail) (t : Nat) : Finset Nat :=
  (Finset.range n).filter (p.Holds past · t)

theorem mem_holders {n i t : Nat} {p : Pool} {past : Trail} :
    i ∈ p.holders n past t ↔ i < n ∧ p.Holds past i t := by
  simp [holders]

theorem holders_congr {n t : Nat} {p q : Pool} {past past' : Trail}
    (h : ∀ i < n, q.Holds past' i t ↔ p.Holds past i t) :
    q.holders n past' t = p.holders n past t := by
  ext i
  rw [mem_holders, mem_holders]
  exact and_congr_right (h i)

theorem owes_of_announcement {p : Pool} {s told : Nat} (h : p.announcement = some (s, told))
    (i t : Nat) : p.owes i t ↔ s = t ∧ told ≤ i := by
  simp [owes, h]

theorem owes_of_none {p : Pool} (h : p.announcement = none) (i t : Nat) : p.owes i t = false := by
  simp [owes, h]

/-- Of the sequences that go to one place, only one is current. -/
theorem Current.eq {p : Pool} {t u : Nat} (ht : p.Current t) (hu : p.Current u)
    (h : t % p.ring.capacity = u % p.ring.capacity) : t = u := by
  obtain ⟨ht, ht'⟩ := ht
  obtain ⟨hu, hu'⟩ := hu
  rcases Nat.lt_trichotomy t u with hlt | rfl | hlt
  · have hmod := Nat.sub_mod_eq_zero_of_mod_eq h.symm
    rw [Nat.mod_eq_of_lt (by omega)] at hmod
    omega
  · rfl
  · have hmod := Nat.sub_mod_eq_zero_of_mod_eq h
    rw [Nat.mod_eq_of_lt (by omega)] at hmod
    omega

/-- A handler that has received a sequence and not released it holds it; it is no longer owed. -/
theorem Positioned.holds {n : Nat} {p : Pool} {past : Trail} (h : Positioned n p past) {i s : Nat}
    {w : Worker} (hw : p.workers[i]? = some w) (hreceived : past.reached i .received = s + 1)
    (hreleased : past.reached i .released = s) :
    p.Holds past i s ∧ p.owes i s = false ∧ ∃ event, past.events[s]? = some event := by
  have hle := (h.stands i w hw).received_le
  have hheard := h.heard_le i
  refine ⟨⟨by omega, Or.inl (by omega)⟩, ?_, ?_⟩
  · rw [← Bool.not_eq_true]
    intro howes
    cases ha : p.announcement with
    | none => simp [owes_of_none ha] at howes
    | some at? =>
        obtain ⟨t, told⟩ := at?
        obtain ⟨rfl, htold⟩ := (owes_of_announcement ha i s).mp howes
        have hunheard := h.unheard t told ha i htold
        omega
  · have hlt : s < past.events.length := by rw [h.written]; omega
    exact ⟨_, List.getElem?_eq_getElem hlt⟩

/-- The handlers that have not heard of the sequence announced are the last of those who hold it. -/
theorem Positioned.card_holders {n s told : Nat} {p q : Pool} {past past' : Trail}
    (hp : Positioned n p past) (hs : Staffed n p past) (ha : p.announcement = some (s, told))
    (hholds : ∀ i < n, q.Holds past' i s ↔ p.Holds past i s ∧ ¬ told ≤ i) :
    (p.holders n past s).card = (q.holders n past' s).card + (n - told) := by
  have hsplit : p.holders n past s = q.holders n past' s ∪ Finset.Ico told n := by
    ext i
    simp only [Finset.mem_union, mem_holders, Finset.mem_Ico]
    constructor
    · rintro ⟨hi, hhold⟩
      by_cases hit : told ≤ i
      · exact Or.inr ⟨hit, hi⟩
      · exact Or.inl ⟨hi, (hholds i hi).mpr ⟨hhold, hit⟩⟩
    · rintro (⟨hi, hhold⟩ | ⟨hit, hi⟩)
      · exact ⟨hi, ((hholds i hi).mp hhold).1⟩
      · obtain ⟨-, -, hreleased, hclaimed, hreceived⟩ := hp.chain hs hi
        have hunheard := hp.unheard s told ha i hit
        exact ⟨hi, by omega, Or.inr ((owes_of_announcement ha i s).mpr ⟨rfl, hit⟩)⟩
  rw [hsplit, Finset.card_union_of_disjoint, Nat.card_Ico]
  rw [Finset.disjoint_left]
  intro i hmem hico
  rw [mem_holders] at hmem
  exact ((hholds i hmem.1).mp hmem.2).2 (Finset.mem_Ico.mp hico).1

/-- What the places of the ring of `n` readers hold. -/
structure Placed (n : Nat) (p : Pool) (past : Trail) : Prop where
  readers : p.ring.readers.toNat = n
  live : ∀ i < n, ∀ t, p.Holds past i t → p.Current t
  pending : ∀ t, p.Current t → (p.ring.place t).pending.toNat = (p.holders n past t).card
  kept : ∀ t event, past.events[t]? = some event → p.Current t →
    (∀ i, event.fallsTo n i → past.reached i .claimed ≤ t) → (∃ i < n, p.Holds past i t) →
    (p.ring.place t).slot = event
  taken : ∀ i < n, ∀ t event, past.events[t]? = some event → p.Current t → event.fallsTo n i →
    t < past.reached i .claimed → (p.ring.place t).slot = .empty

namespace Placed

variable {n : Nat} {p q : Pool} {past deeds : Trail}

theorem new (config : Config) (reporting : Bool) :
    Placed config.handlers.toNat (.new config reporting) [] where
  readers := by
    have hpos := config.handlers_pos
    simp [Pool.new, Ring.new, UInt64.pos_iff_ne_zero.mp hpos]
  live := by simp [Holds, owes, announcement, Pool.new]
  pending := by
    intro t ht
    simp [Current, Pool.new] at ht
  kept := by simp
  taken := by simp

/-- Moves that concern neither the ring nor what the count of a place depends on. -/
theorem keep (h : Placed n p past) (hr : q.ring = p.ring) (hn : q.next = p.next)
    (hholds : ∀ i < n, ∀ t, q.Holds (past ++ deeds) i t ↔ p.Holds past i t)
    (hclaimed : ∀ i, Trail.reached (past ++ deeds) i .claimed = past.reached i .claimed)
    (he : Trail.events deeds = []) : Placed n q (past ++ deeds) := by
  have hcurrent : ∀ t, q.Current t ↔ p.Current t := by
    intro t
    simp only [Current, hr, hn]
  constructor
  · rw [hr, h.readers]
  · intro i hi t ht
    exact (hcurrent t).mpr (h.live i hi t ((hholds i hi t).mp ht))
  · intro t ht
    rw [hr, holders_congr fun i hi => hholds i hi t, h.pending t ((hcurrent t).mp ht)]
  · intro t event hevent ht hfalls hex
    obtain ⟨i, hi, hhold⟩ := hex
    rw [hr]
    refine h.kept t event (by simpa [he] using hevent) ((hcurrent t).mp ht) ?_
      ⟨i, hi, (hholds i hi t).mp hhold⟩
    intro j hj
    rw [← hclaimed]
    exact hfalls j hj
  · intro i hi t event hevent ht hfalls hlt
    rw [hr]
    rw [hclaimed] at hlt
    exact h.taken i hi t event (by simpa [he] using hevent) ((hcurrent t).mp ht) hfalls hlt

/-- A place is free when nobody holds what was written there before. -/
theorem free (h : Placed n p past) {s : Nat} {slot : Slot} {ring : Ring}
    (hr : p.ring.write? s slot = some ring) {i t : Nat} (hi : i < n) (hhold : p.Holds past i t) :
    t % p.ring.capacity ≠ s % p.ring.capacity := by
  intro hmod
  have hcount := h.pending t (h.live i hi t hhold)
  have hzero : (p.ring.place s).pending = 0 := by
    by_contra hne
    rw [Ring.write?_eq_none_iff.mpr hne] at hr
    contradiction
  rw [p.ring.place_congr hmod, hzero, UInt64.toNat_zero, eq_comm, Finset.card_eq_zero] at hcount
  have hmem : i ∈ p.holders n past t := mem_holders.mpr ⟨hi, hhold⟩
  simp [hcount] at hmem

theorem write (h : Placed n p past) (hs : Staffed n p past) (hp : Positioned n p past)
    {ticket : Nat} {slot : Slot} {ring : Ring} (hh : p.holder = some ⟨ticket, .writing slot⟩)
    (hr : p.ring.write? p.next slot = some ring) :
    Placed n { p with ring, next := p.next + 1, holder := some ⟨ticket, .announcing p.next 0⟩ }
      (past ++ [.wrote ticket p.next slot]) := by
  have ha : p.announcement = none := by simp [announcement, hh]
  have hcap := Ring.capacity_write? hr
  have hpos : 0 < p.ring.capacity := p.ring.size_pos
  have hreached : ∀ i, Trail.reached (past ++ [.wrote ticket p.next slot]) i = past.reached i :=
    fun i => Trail.reached_append_of_passed past fun φ => by simp [Trail.passed_cons]
  have hevents : Trail.events (past ++ [.wrote ticket p.next slot]) = past.events ++ [slot] := by
    simp [Deed.event?]
  have hlength := hp.written
  set q : Pool :=
    { p with ring, next := p.next + 1, holder := some ⟨ticket, .announcing p.next 0⟩ } with hq
  have hqa : q.announcement = some (p.next, 0) := rfl
  have hcurrent : ∀ t, q.Current t ↔ t < p.next + 1 ∧ p.next + 1 ≤ t + p.ring.capacity := by
    intro t
    simp only [Current, hq, hcap]
  have hholds : ∀ i < n, ∀ t, q.Holds (past ++ [.wrote ticket p.next slot]) i t ↔
      p.Holds past i t ∨ t = p.next := by
    intro i hi t
    obtain ⟨-, -, hreleased, hclaimed, hreceived⟩ := hp.chain hs hi
    have hheard := hp.heard_le i
    simp only [Holds, hreached, owes_of_none ha, owes_of_announcement hqa]
    constructor
    · rintro ⟨hrel, hlt | ⟨rfl, -⟩⟩
      · exact Or.inl ⟨hrel, Or.inl hlt⟩
      · exact Or.inr rfl
    · rintro (⟨hrel, hlt | hfalse⟩ | rfl)
      · exact ⟨hrel, Or.inl hlt⟩
      · contradiction
      · exact ⟨by omega, Or.inr ⟨rfl, Nat.zero_le _⟩⟩
  have hother : ∀ t, q.Current t → t ≠ p.next → p.Current t ∧ ring.place t = p.ring.place t := by
    intro t ht hne
    rw [hcurrent] at ht
    refine ⟨⟨by omega, by omega⟩, ?_⟩
    have hmod : p.next % p.ring.capacity ≠ t % p.ring.capacity := by
      intro hmod
      have hzero := Nat.sub_mod_eq_zero_of_mod_eq hmod
      rw [Nat.mod_eq_of_lt (by omega)] at hzero
      omega
    rw [Ring.place_write? hr, if_neg hmod]
  have hself : ring.place p.next = ⟨slot, p.ring.readers⟩ := by
    rw [Ring.place_write? hr, if_pos rfl]
  constructor
  · rw [hq, Ring.readers_write? hr, h.readers]
  · intro i hi t ht
    rw [hcurrent]
    rcases (hholds i hi t).mp ht with hold | rfl
    · obtain ⟨hlt, hle⟩ := h.live i hi t hold
      refine ⟨by omega, ?_⟩
      by_contra hlate
      -- only the sequence that is one round behind has the same place
      have hround : t + p.ring.capacity = p.next := by omega
      exact h.free hr hi hold (by rw [← hround, Nat.add_mod_right])
    · omega
  · intro t ht
    by_cases hne : t = p.next
    · subst hne
      have hall : q.holders n (past ++ [.wrote ticket p.next slot]) p.next = Finset.range n := by
        ext i
        rw [mem_holders, Finset.mem_range]
        constructor
        · exact fun hi => hi.1
        · exact fun hi => ⟨hi, (hholds i hi _).mpr (Or.inr rfl)⟩
      rw [hall, Finset.card_range]
      simp only [hq, hself, h.readers]
    · obtain ⟨hold, hplace⟩ := hother t ht hne
      have hsame : q.holders n (past ++ [.wrote ticket p.next slot]) t = p.holders n past t := by
        refine holders_congr fun i hi => ?_
        rw [hholds i hi t, or_iff_left hne]
      rw [hsame, ← h.pending t hold, ← hplace]
  · intro t event hevent ht hfalls hex
    rw [hevents] at hevent
    simp only [hreached] at hfalls
    by_cases hne : t = p.next
    · subst hne
      rw [← hlength, List.getElem?_concat_length, Option.some.injEq] at hevent
      simp only [hq, hself, hevent]
    · obtain ⟨hold, hplace⟩ := hother t ht hne
      rw [List.getElem?_append_left (by rw [hlength]; exact hold.1)] at hevent
      obtain ⟨i, hi, hhold⟩ := hex
      have hhold' := (hholds i hi t).mp hhold
      rw [or_iff_left hne] at hhold'
      simpa only [hq, hplace] using h.kept t event hevent hold hfalls ⟨i, hi, hhold'⟩
  · intro i hi t event hevent ht hfalls hlt
    rw [hevents] at hevent
    rw [hreached] at hlt
    -- nobody has claimed what has just been written
    obtain ⟨-, -, -, hclaimed, hreceived⟩ := hp.chain hs hi
    have hheard := hp.heard_le i
    obtain ⟨hold, hplace⟩ := hother t ht (by omega)
    rw [List.getElem?_append_left (by rw [hlength]; exact hold.1)] at hevent
    simpa only [hq, hplace] using h.taken i hi t event hevent hold hfalls hlt

theorem tell (h : Placed n p past) (hs : Staffed n p past) (hp : Positioned n p past)
    {ticket s told : Nat} {w : Worker} (hh : p.holder = some ⟨ticket, .announcing s told⟩)
    (hw : p.workers[told]? = some w) (hg : w.stage ≠ .ended) :
    Placed n
      { p with
        workers := p.workers.set told (w.hear s)
        holder := some ⟨ticket, .announcing s (told + 1)⟩ }
      (past ++ [.told told s]) := by
  have ha : p.announcement = some (s, told) := by simp [announcement, hh]
  obtain ⟨hheard, -⟩ := hp.heard_of_announcement hs ha hw hg
  set q : Pool :=
    { p with
      workers := p.workers.set told (w.hear s)
      holder := some ⟨ticket, .announcing s (told + 1)⟩ }
  have hqa : q.announcement = some (s, told + 1) := rfl
  refine h.keep rfl rfl ?_ (by simp [Deed.passes]) (by simp [Deed.event?])
  intro i hi t
  have hunheard := hp.unheard s told ha i
  simp only [Holds, owes_of_announcement ha, owes_of_announcement hqa]
  by_cases hit : told = i
  · subst hit
    simp only [Trail.reached_append, Trail.reached_cons, Deed.passes, Deed.sequenceAt?_told,
      reduceCtorEq, and_false, if_false, Option.isSome_none, Bool.false_eq_true, Trail.reached_nil,
      and_self, if_true, Option.isSome_some]
    omega
  · simp only [Trail.reached_append, Trail.reached_cons, Deed.passes, Deed.sequenceAt?_told, hit,
      false_and, if_false, Option.isSome_none, Bool.false_eq_true, Trail.reached_nil]
    omega

theorem finish (h : Placed n p past) (hs : Staffed n p past) {ticket s told : Nat}
    (hh : p.holder = some ⟨ticket, .announcing s told⟩) (ht : p.workers.length ≤ told) :
    Placed n (p.finish ticket (.ok s)) past := by
  have ha : p.announcement = some (s, told) := by simp [announcement, hh]
  rw [hs.size] at ht
  rw [← List.append_nil past]
  refine h.keep rfl rfl ?_ (by simp) rfl
  intro i hi t
  simp only [Holds, owes_of_announcement ha, List.append_nil]
  rw [owes_of_none (by simp [Pool.finish, announcement])]
  have hnot : ¬ (s = t ∧ told ≤ i) := by omega
  simp [hnot]

/-- The handlers that have not heard of a sequence hold it no longer. -/
theorem giveUp (h : Placed n p past) (hs : Staffed n p past) (hp : Positioned n p past)
    {ticket s told : Nat} {w : Worker} (hh : p.holder = some ⟨ticket, .announcing s told⟩)
    (hw : p.workers[told]? = some w) :
    Placed n
      ({ p with
        ring := p.ring.abandon s (UInt64.ofNat (p.workers.length - told))
        running := false }.finish ticket (.error .shutdown))
      (past ++ [.gaveUp told s]) := by
  have ha : p.announcement = some (s, told) := by simp [announcement, hh]
  obtain ⟨hnext, -⟩ := hp.announcing s told ha
  obtain ⟨htold, -⟩ := List.getElem?_eq_some_iff.mp hw
  rw [hs.size] at htold
  have hpos : 0 < p.ring.capacity := p.ring.size_pos
  have hsc : p.Current s := ⟨by omega, by omega⟩
  have hreached : ∀ i, Trail.reached (past ++ [.gaveUp told s]) i = past.reached i :=
    fun i => Trail.reached_append_of_passed past fun φ => by simp [Trail.passed_cons]
  have hevents : Trail.events (past ++ [.gaveUp told s]) = past.events := by simp [Deed.event?]
  have hreaders : (UInt64.ofNat (p.workers.length - told)).toNat = n - told := by
    have hlt := p.ring.readers.toNat_lt
    rw [h.readers] at hlt
    rw [hs.size, UInt64.toNat_ofNat_of_lt' (by simp only [UInt64.size]; omega)]
  set readers := UInt64.ofNat (p.workers.length - told) with hrd
  have hne : readers ≠ 0 := by
    intro hzero
    rw [hzero, UInt64.toNat_zero] at hreaders
    omega
  set q : Pool := { p with ring := p.ring.abandon s readers, running := false }.finish ticket
    (.error .shutdown) with hq
  have hcurrent : ∀ t, q.Current t ↔ p.Current t := by
    intro t
    simp only [Current, hq, Pool.finish, Ring.capacity_abandon]
  have hholds : ∀ i < n, ∀ t, q.Holds (past ++ [.gaveUp told s]) i t ↔
      p.Holds past i t ∧ ¬ (s = t ∧ told ≤ i) := by
    intro i hi t
    have hunheard := hp.unheard s told ha i
    simp only [Holds, hreached, owes_of_announcement ha]
    rw [owes_of_none (by simp [hq, Pool.finish, announcement])]
    simp only [Bool.false_eq_true, or_false]
    omega
  have hplace : ∀ t, p.Current t → q.ring.place t =
      if s = t then if (p.ring.place t).pending = readers then {} else
        { p.ring.place t with pending := (p.ring.place t).pending - readers }
      else p.ring.place t := by
    intro t ht
    simp only [hq, Pool.finish, Ring.place_abandon, hne, ne_eq, not_false_eq_true, and_true]
    by_cases hst : s = t
    · simp only [hst, if_true]
    · rw [if_neg hst, if_neg fun hmod => hst (hsc.eq ht hmod)]
  have hcard : (p.holders n past s).card =
      (q.holders n (past ++ [.gaveUp told s]) s).card + (n - told) := by
    refine hp.card_holders hs ha fun i hi => ?_
    rw [hholds i hi s, eq_self_iff_true, true_and]
  have hpending := h.pending s hsc
  rw [hcard] at hpending
  constructor
  · simp only [hq, Pool.finish, Ring.readers_abandon, h.readers]
  · intro i hi t ht
    exact (hcurrent t).mpr (h.live i hi t ((hholds i hi t).mp ht).1)
  · intro t ht
    rw [hcurrent] at ht
    rw [hplace t ht]
    by_cases hst : s = t
    · subst hst
      rw [if_pos rfl]
      split
      · rename_i hall
        rw [hall, hreaders] at hpending
        simp only [UInt64.toNat_zero]
        omega
      · rw [UInt64.toNat_sub_of_le _ _ (by rw [UInt64.le_iff_toNat_le]; omega), hreaders]
        omega
    · rw [if_neg hst, h.pending t ht, holders_congr fun i hi => ?_]
      rw [hholds i hi t, and_iff_left fun hx => hst hx.1]
  · intro t event hevent ht hfalls hex
    rw [hcurrent] at ht
    rw [hevents] at hevent
    simp only [hreached] at hfalls
    obtain ⟨i, hi, hhold⟩ := hex
    have hkept := h.kept t event hevent ht hfalls ⟨i, hi, ((hholds i hi t).mp hhold).1⟩
    rw [hplace t ht]
    split
    · rename_i hst
      subst hst
      have hsome : 0 < (q.holders n (past ++ [.gaveUp told s]) s).card :=
        Finset.card_pos.mpr ⟨i, mem_holders.mpr ⟨hi, hhold⟩⟩
      split
      · rename_i hall
        rw [hall, hreaders] at hpending
        omega
      · exact hkept
    · exact hkept
  · intro i hi t event hevent ht hfalls hlt
    rw [hcurrent] at ht
    rw [hevents] at hevent
    rw [hreached] at hlt
    have htaken := h.taken i hi t event hevent ht hfalls hlt
    rw [hplace t ht]
    split
    · split
      · rfl
      · exact htaken
    · exact htaken

/-- While somebody holds a sequence, its place holds its event or nothing. -/
theorem slot_eq (h : Placed n p past) {i t : Nat} {event : Slot} (hi : i < n)
    (hhold : p.Holds past i t) (hevent : past.events[t]? = some event) :
    (p.ring.place t).slot = event ∨ (p.ring.place t).slot = .empty := by
  have ht := h.live i hi t hhold
  by_cases hclaimed : ∃ j, event.fallsTo n j ∧ t < past.reached j .claimed
  · obtain ⟨j, hj, hlt⟩ := hclaimed
    exact Or.inr (h.taken j (Slot.lt_of_fallsTo hj hi) t event hevent ht hj hlt)
  · refine Or.inl (h.kept t event hevent ht ?_ ⟨i, hi, hhold⟩)
    intro j hj
    exact Nat.le_of_not_lt fun hlt => hclaimed ⟨j, hj, hlt⟩

/-- A handler takes out of a place what falls to it of the event that was written there. -/
theorem claim_eq (h : Placed n p past) {i s : Nat} {event : Slot} (hi : i < n)
    (hhold : p.Holds past i s) (hclaimed : past.reached i .claimed ≤ s)
    (hevent : past.events[s]? = some event) :
    (p.ring.claim s (Slot.fallsTo n i)).1 = event.shareOf n i := by
  rw [Ring.claim_fst]
  by_cases hfalls : event.fallsTo n i
  · have hkept : (p.ring.place s).slot = event := by
      refine h.kept s event hevent (h.live i hi s hhold) ?_ ⟨i, hi, hhold⟩
      intro j hj
      rw [Slot.eq_of_fallsTo hj hfalls]
      exact hclaimed
    rw [hkept, Slot.shareOf, if_pos hfalls]
  · rw [Slot.shareOf, if_neg hfalls]
    rcases h.slot_eq hi hhold hevent with hslot | hslot
    · rw [hslot, if_neg hfalls]
    · rw [hslot, ite_self]

theorem claim (h : Placed n p past) {i s : Nat} {event : Slot} (hi : i < n)
    (hhold : p.Holds past i s) (hclaimed : past.reached i .claimed = s)
    (hevent : past.events[s]? = some event) (workers : List Worker) (reports : List Report)
    (slot : Slot) :
    Placed n { p with workers, ring := (p.ring.claim s (Slot.fallsTo n i)).2, reports }
      (past ++ [.claimed i s slot]) := by
  have hs := h.live i hi s hhold
  have hreached : ∀ j φ, φ ≠ .claimed →
      Trail.reached (past ++ [.claimed i s slot]) j φ = past.reached j φ := by
    intro j φ hφ
    simp [Deed.passes, hφ.symm]
  have hone : ∀ j, Trail.reached (past ++ [.claimed i s slot]) j .claimed =
      past.reached j .claimed + if i = j then 1 else 0 := by
    intro j
    by_cases hij : i = j <;> simp [Deed.passes, hij]
  have hevents : Trail.events (past ++ [.claimed i s slot]) = past.events := by simp [Deed.event?]
  set q : Pool := { p with workers, ring := (p.ring.claim s (Slot.fallsTo n i)).2, reports } with hq
  have hcurrent : ∀ t, q.Current t ↔ p.Current t := by
    intro t
    simp only [Current, hq, Ring.capacity_claim]
  have hholds : ∀ j t, q.Holds (past ++ [.claimed i s slot]) j t ↔ p.Holds past j t := by
    intro j t
    simp [Holds, hreached, owes, announcement, hq]
  have hpending : ∀ t, (q.ring.place t).pending = (p.ring.place t).pending := by
    intro t
    simp only [hq, Ring.place_claim]
    split <;> rfl
  constructor
  · simp only [hq, Ring.readers_claim, h.readers]
  · intro j hj t ht
    exact (hcurrent t).mpr (h.live j hj t ((hholds j t).mp ht))
  · intro t ht
    rw [hpending, h.pending t ((hcurrent t).mp ht), holders_congr fun j _ => hholds j t]
  · intro t other hother ht hfalls hex
    rw [hcurrent] at ht
    rw [hevents] at hother
    obtain ⟨j, hj, hholdj⟩ := hex
    have hkept := h.kept t other hother ht
      (fun k hk => (Nat.le_add_right _ _).trans (hone k ▸ hfalls k hk))
      ⟨j, hj, (hholds j t).mp hholdj⟩
    simp only [hq, Ring.place_claim]
    rw [if_neg, hkept]
    rintro ⟨hmod, howns⟩
    -- the event would be claimed by its owner in this very step
    obtain rfl := hs.eq ht hmod
    rw [hkept] at howns
    have hle := hfalls i howns
    rw [hone, if_pos rfl] at hle
    omega
  · intro j hj t other hother ht hfalls hlt
    rw [hcurrent] at ht
    rw [hevents] at hother
    simp only [hq, Ring.place_claim]
    split
    · rfl
    · rename_i hnot
      by_cases hbefore : t < past.reached j .claimed
      · exact h.taken j hj t other hother ht hfalls hbefore
      · -- the owner has just claimed it
        exfalso
        rw [hone] at hlt
        split at hlt
        · rename_i hij
          subst hij
          have hst : t = s := by omega
          subst hst
          have hkept := h.claim_eq hi hhold (by omega) hother
          rw [Ring.claim_fst, Slot.shareOf, if_pos hfalls] at hkept
          split at hkept
          · rename_i howns
            exact hnot ⟨rfl, howns⟩
          · rw [← hkept] at hfalls
            simp [Slot.fallsTo, Slot.empty] at hfalls
        · omega

theorem release (h : Placed n p past) {i s : Nat} (hi : i < n) (hhold : p.Holds past i s)
    (hreleased : past.reached i .released = s) (hunowed : p.owes i s = false)
    (workers : List Worker) (reports : List Report) :
    Placed n { p with workers, ring := p.ring.release s, reports } (past ++ [.released i s]) := by
  have hs := h.live i hi s hhold
  have hreached : ∀ j φ, φ ≠ .released →
      Trail.reached (past ++ [.released i s]) j φ = past.reached j φ := by
    intro j φ hφ
    simp [Deed.passes, hφ.symm]
  have hone : ∀ j, Trail.reached (past ++ [.released i s]) j .released =
      past.reached j .released + if i = j then 1 else 0 := by
    intro j
    by_cases hij : i = j <;> simp [Deed.passes, hij]
  have hevents : Trail.events (past ++ [.released i s]) = past.events := by simp [Deed.event?]
  set q : Pool := { p with workers, ring := p.ring.release s, reports } with hq
  have hcurrent : ∀ t, q.Current t ↔ p.Current t := by
    intro t
    simp only [Current, hq, Ring.capacity_release]
  have hslot : ∀ t, (q.ring.place t).slot = (p.ring.place t).slot := by
    intro t
    simp only [hq, Ring.place_release]
    split <;> rfl
  have hholds : ∀ j t, q.Holds (past ++ [.released i s]) j t ↔
      p.Holds past j t ∧ ¬ (j = i ∧ t = s) := by
    intro j t
    have howes : q.owes j t = p.owes j t := rfl
    simp only [Holds, hone, hreached j .heard (by simp), howes]
    by_cases hij : i = j
    · subst hij
      by_cases hts : t = s
      · subst hts
        simp [hreleased]
      · simp only [if_true, hts, and_false, not_false_eq_true, and_true]
        refine and_congr_left fun _ => ?_
        omega
    · simp [hij, Ne.symm hij]
  constructor
  · simp only [hq, Ring.readers_release, h.readers]
  · intro j hj t ht
    exact (hcurrent t).mpr (h.live j hj t ((hholds j t).mp ht).1)
  · intro t ht
    rw [hcurrent] at ht
    simp only [hq, Ring.place_release]
    by_cases hst : s = t
    · subst hst
      have herase : q.holders n (past ++ [.released i s]) s = (p.holders n past s).erase i := by
        ext j
        rw [Finset.mem_erase, mem_holders, mem_holders, hholds]
        simp only [and_true]
        tauto
      have hmem : i ∈ p.holders n past s := mem_holders.mpr ⟨hi, hhold⟩
      have hpos := Finset.card_pos.mpr ⟨i, hmem⟩
      have hpending := h.pending s ht
      rw [if_pos rfl, herase, Finset.card_erase_of_mem hmem, ← hpending,
        UInt64.toNat_sub_of_le _ _ (by rw [UInt64.le_iff_toNat_le, UInt64.toNat_one]; omega),
        UInt64.toNat_one]
    · rw [if_neg fun hmod => hst (hs.eq ht hmod), h.pending t ht, holders_congr fun j _ => ?_]
      rw [hholds, and_iff_left fun hx => hst hx.2.symm]
  · intro t event hevent ht hfalls hex
    rw [hcurrent] at ht
    rw [hevents] at hevent
    obtain ⟨j, hj, hholdj⟩ := hex
    rw [hslot]
    refine h.kept t event hevent ht ?_ ⟨j, hj, ((hholds j t).mp hholdj).1⟩
    intro k hk
    rw [← hreached k .claimed (by simp)]
    exact hfalls k hk
  · intro j hj t event hevent ht hfalls hlt
    rw [hcurrent] at ht
    rw [hevents] at hevent
    rw [hreached j .claimed (by simp)] at hlt
    rw [hslot]
    exact h.taken j hj t event hevent ht hfalls hlt

theorem turn (h : Placed n p past) (hs : Staffed n p past) (hp : Positioned n p past) {i : Nat}
    {w w' : Worker} {ring : Ring} {report : Option Report} (reports : List Report)
    (hw : p.workers[i]? = some w) (ht : w.Turn i p.closed p.ring deeds w' ring report) :
    Placed n { p with workers := p.workers.set i w', ring, reports } (past ++ deeds) := by
  obtain ⟨hi, -⟩ := List.getElem?_eq_some_iff.mp hw
  rw [hs.size] at hi
  have hstage := (hp.stands i w hw).stage
  have hheard := ht.reached_heard
  have hevents := ht.events_eq
  cases ht with
  | claim s hst =>
      simp only [hst, Stage.At] at hstage
      obtain ⟨hhold, -, event, hevent⟩ := hp.holds hw hstage.1 hstage.2.2.1
      rw [Handler.owns_eq (hs.role i w hw)]
      exact h.claim hi hhold hstage.2.1 hevent _ _ _
  | release s slot hst =>
      simp only [hst, Stage.At] at hstage
      obtain ⟨hhold, hunowed, -⟩ := hp.holds hw hstage.1 hstage.2.2.1
      exact h.release hi hhold hstage.2.2.1 hunowed _ _
  | _ =>
      refine h.keep rfl rfl ?_ (by simp [Deed.passes]) hevents
      intro j hj t
      simp [Holds, owes, announcement, Deed.passes]

theorem move (h : Placed n p past) (hs : Staffed n p past) (hp : Positioned n p past)
    (hm : p.Move deeds q) : Placed n q (past ++ deeds) := by
  cases hm with
  | come slot =>
      obtain ⟨waiting, results, heq, -⟩ := p.publish_eq slot
      rw [heq]
      refine h.keep rfl rfl ?_ (by simp [Deed.passes]) (by simp [Deed.event?])
      intro i hi t
      simp [Holds, owes, announcement, Deed.passes]
  | acquire ticket slot hh hw =>
      refine h.keep rfl rfl ?_ (by simp) rfl
      simp [Holds, owes, announcement, hh]
  | write ticket slot ring hh hr => exact h.write hs hp hh hr
  | tell ticket s told w hh hw hg hroom => exact h.tell hs hp hh hw hg
  | giveUp ticket s told w hh hw hg => exact h.giveUp hs hp hh hw
  | finish ticket s told hh ht => simpa using h.finish hs hh ht
  | withdraw ticket slot hh =>
      refine h.keep rfl rfl ?_ (by simp) rfl
      simp [Holds, owes, announcement, hh]
  | withdrawWaiting ticket =>
      exact h.keep rfl rfl (by simp [Holds, owes, announcement]) (by simp) rfl
  | turn i w _ w' ring report reports hw ht hr => exact h.turn hs hp reports hw ht
  | stop i w hw =>
      refine h.keep rfl rfl ?_ (by simp [Deed.passes]) (by simp [Deed.event?])
      simp [Holds, owes, announcement, Deed.passes]
  | close hp => exact h.keep rfl rfl (by simp [Holds, owes, announcement]) (by simp) rfl
  | rest => simpa using h

end Placed

end Pool

end ShardedDelivery
