import ShardedDelivery.Proofs.Pool.Abandonment

/-! # Sequences in the order of the lock

Publishers are told 0, 1, 2 and so on in the order in which they get the lock, until one of them
fails after it has written; from then on all fail. Who comes after that is turned away, and leaves
no more behind than who withdraws before writing. -/

namespace ShardedDelivery

namespace Pool

/-! ## The sequences told -/

/-- The sequence that this publisher was told. -/
def granted? (p : Pool) (ticket : Nat) : Option Nat :=
  p.results.findSome? fun (other, result) => if other = ticket then result.toOption else none

/-- The sequences told so far, in the order in which publishers finished. -/
def sequences (p : Pool) : List Nat := p.results.filterMap fun (_, result) => result.toOption

/-- The sequence that is to be told next. -/
def due (p : Pool) : Nat := p.announcement.elim p.next Prod.fst

section Finish

variable (p : Pool) (ticket : Nat) (result : Except PublishError Nat)

theorem granted?_finish (other : Nat) : (p.finish ticket result).granted? other =
    (p.granted? other).or (if ticket = other then result.toOption else none) := by
  simp [granted?, Pool.finish, List.findSome?_append]

theorem sequences_finish :
    (p.finish ticket result).sequences = p.sequences ++ result.toOption.toList := by
  cases result <;> simp [sequences, Pool.finish, Except.toOption]

/-- Whoever fails changes nothing about the sequences told. -/
theorem told_finish_error (error : PublishError) :
    (p.finish ticket (.error error)).granted? = p.granted? ∧
      (p.finish ticket (.error error)).sequences = p.sequences := by
  constructor
  · funext other
    rw [granted?_finish]
    simp [Except.toOption]
  · rw [sequences_finish]
    exact List.append_nil _

theorem told_publish (slot : Slot) :
    (p.publish slot).granted? = p.granted? ∧ (p.publish slot).sequences = p.sequences := by
  by_cases hr : p.running
  · simp only [publish, hr, if_true]
    exact ⟨rfl, rfl⟩
  · rw [publish, if_neg hr]
    exact p.told_finish_error p.tickets .shutdown

end Finish

theorem granted?_eq_none {p : Pool} {ticket : Nat} (h : ticket ∉ p.results.map Prod.fst) :
    p.granted? ticket = none := by
  rw [granted?, List.findSome?_eq_none_iff]
  rintro ⟨other, result⟩ hx
  have hne : other ≠ ticket := by
    rintro rfl
    exact h (List.mem_map_of_mem hx)
  exact if_neg hne

/-- Whoever was told a sequence was told nothing else. -/
theorem Answers.granted?_eq_some_iff {p : Pool} (h : p.Answers) {ticket s : Nat} :
    p.granted? ticket = some s ↔ (ticket, .ok s) ∈ p.results := by
  have hmem : ∀ t, p.granted? ticket = some t → (ticket, .ok t) ∈ p.results := by
    intro t ht
    obtain ⟨⟨other, result⟩, hmem, hresult⟩ := List.exists_of_findSome?_eq_some ht
    simp only [Option.ite_none_right_eq_some] at hresult
    obtain ⟨rfl, hresult⟩ := hresult
    cases result with
    | error _ => contradiction
    | ok _ =>
        cases hresult
        exact hmem
  refine ⟨hmem s, fun hs => ?_⟩
  have hsome : (p.granted? ticket).isSome := by
    rw [granted?, List.findSome?_isSome_iff]
    exact ⟨_, hs, by simp [Except.toOption]⟩
  obtain ⟨t, ht⟩ := Option.isSome_iff_exists.mp hsome
  rw [ht, Except.ok.inj ((h.result_eq hs).2 _ (hmem t ht))]

theorem mem_sequences {p : Pool} {s : Nat} :
    s ∈ p.sequences ↔ ∃ ticket, (ticket, .ok s) ∈ p.results := by
  rw [sequences, List.mem_filterMap]
  constructor
  · rintro ⟨⟨ticket, _ | t⟩, hmem, hresult⟩
    · contradiction
    · cases hresult
      exact ⟨ticket, hmem⟩
  · rintro ⟨ticket, hmem⟩
    exact ⟨_, hmem, rfl⟩

/-- How many sequences have been told: all that were written so far, but not the one that is being
announced, and none from a given-up one on. -/
structure Counted (p : Pool) (past : Trail) : Prop where
  range : p.sequences = List.range p.sequences.length
  le_due : p.sequences.length ≤ p.due
  eq_due : (∀ j s, .gaveUp j s ∉ past) → p.sequences.length = p.due
  stopped : ∀ j s, .gaveUp j s ∈ past → p.sequences.length ≤ s

namespace Counted

variable {n : Nat} {p q : Pool} {past deeds : Trail}

theorem new (config : Config) (reporting : Bool) : Counted (.new config reporting) [] := by
  constructor <;> simp [Pool.new, sequences, due, announcement]

/-- Moves by which nobody finishes or gives up. -/
theorem keep (h : Counted p past) (hs : q.sequences = p.sequences) (hd : q.due = p.due)
    (hg : ∀ j s, .gaveUp j s ∉ deeds) : Counted q (past ++ deeds) := by
  have hold : ∀ j s, .gaveUp j s ∈ past ++ deeds ↔ .gaveUp j s ∈ past := by
    intro j s
    simp [hg j s]
  constructor
  · rw [hs]
    exact h.range
  · rw [hs, hd]
    exact h.le_due
  · simpa only [hs, hd, hold] using h.eq_due
  · simpa only [hs, hold] using h.stopped

/-- Nobody succeeds after somebody has given up. -/
theorem finish (h : Counted p past) (hs : Staffed n p past) (hp : Positioned n p past)
    {ticket s told : Nat} (hh : p.holder = some ⟨ticket, .announcing s told⟩)
    (ht : p.workers.length ≤ told) : Counted (p.finish ticket (.ok s)) (past ++ []) := by
  have ha : p.announcement = some (s, told) := by simp [announcement, hh]
  have hnone : ∀ j t, .gaveUp j t ∉ past := by
    intro j t hmem
    obtain ⟨-, w, hw, -⟩ := hs.gaveUp j t hmem
    have hlt := hs.lt_of_getElem? hw
    have hle := hp.untold s told ha j t hmem
    have hsize := hs.size
    omega
  have hlength : p.sequences.length = s := by
    rw [h.eq_due hnone, due, ha]
    rfl
  have hsequences : (p.finish ticket (.ok s)).sequences = p.sequences ++ [s] :=
    p.sequences_finish ticket (.ok s)
  have hdue : (p.finish ticket (.ok s)).due = s + 1 := by
    rw [(hp.announcing s told ha).1]
    rfl
  rw [List.append_nil]
  constructor
  · rw [hsequences, h.range, hlength]
    simp [List.range_succ]
  · rw [hsequences, hdue, List.length_append, hlength]
    exact le_rfl
  · intro _
    rw [hsequences, hdue, List.length_append, hlength]
    rfl
  · intro j t hmem
    exact absurd hmem (hnone j t)

theorem giveUp (h : Counted p past) (hp : Positioned n p past) {ticket s told : Nat}
    (hh : p.holder = some ⟨ticket, .announcing s told⟩) (ring : Ring) :
    Counted ({ p with ring, running := false }.finish ticket (.error .shutdown))
      (past ++ [.gaveUp told s]) := by
  have ha : p.announcement = some (s, told) := by simp [announcement, hh]
  have hle := h.le_due
  rw [due, ha] at hle
  have hsequences :
      ({ p with ring, running := false }.finish ticket (.error .shutdown)).sequences =
        p.sequences :=
    (told_finish_error _ ticket .shutdown).2
  have hdue :
      ({ p with ring, running := false }.finish ticket (.error .shutdown)).due = s + 1 := by
    rw [(hp.announcing s told ha).1]
    rfl
  constructor
  · rw [hsequences]
    exact h.range
  · rw [hsequences, hdue]
    exact Nat.le_succ_of_le hle
  · intro hnone
    exact absurd (by simp) (hnone told s)
  · intro j t hmem
    rw [hsequences]
    rcases List.mem_append.mp hmem with hmem | hmem
    · exact h.stopped j t hmem
    · simp only [List.mem_singleton, Deed.gaveUp.injEq] at hmem
      rw [hmem.2]
      exact hle

theorem move (h : Counted p past) (hs : Staffed n p past) (hp : Positioned n p past)
    (hm : p.Move deeds q) : Counted q (past ++ deeds) := by
  cases hm with
  | come slot =>
      obtain ⟨waiting, results, heq, -⟩ := p.publish_eq slot
      refine h.keep (p.told_publish slot).2 ?_ (by simp)
      rw [heq]
      rfl
  | acquire ticket slot hh hw => exact h.keep rfl (by simp [due, announcement, hh]) (by simp)
  | write ticket slot ring hh hr => exact h.keep rfl (by simp [due, announcement, hh]) (by simp)
  | tell ticket s told w hh hw hg hroom =>
      exact h.keep rfl (by simp [due, announcement, hh]) (by simp)
  | giveUp ticket s told w hh hw hg => exact h.giveUp hp hh _
  | finish ticket s told hh ht => exact h.finish hs hp hh ht
  | withdraw ticket slot hh => exact h.keep rfl (by simp [due, announcement, hh]) (by simp)
  | turn i w _ w' ring report reports hw ht hr => exact h.keep rfl rfl ht.not_mem_deeds.1
  | _ => exact h.keep rfl rfl (by simp)

end Counted

/-! ## The order of the lock -/

/-- Publishers that have held the lock, in this order, are told sequences in this order. -/
structure Queued (holders : List Nat) (p : Pool) : Prop where
  nodup : holders.Nodup
  lt : ∀ ticket ∈ holders, ticket < p.tickets
  waiting : ∀ x ∈ p.waiting, x.1 ∉ holders
  last : ∀ x, p.holder = some x → holders.getLast? = some x.ticket
  granted : holders.filterMap p.granted? = p.sequences

namespace Queued

variable {p q : Pool} {holders : List Nat} {deeds : Trail}

theorem new (config : Config) (reporting : Bool) : Queued [] (.new config reporting) := by
  constructor <;> simp [Pool.new, sequences]

/-- Moves by which nobody gets the lock, and nobody succeeds. -/
theorem keep (h : Queued holders p) (ht : p.tickets ≤ q.tickets)
    (hw : ∀ x ∈ q.waiting, x ∈ p.waiting ∨ x.1 = p.tickets)
    (hh : ∀ x, q.holder = some x → ∃ y, p.holder = some y ∧ y.ticket = x.ticket)
    (hg : q.granted? = p.granted? ∧ q.sequences = p.sequences) : Queued holders q where
  nodup := h.nodup
  lt ticket hmem := (h.lt ticket hmem).trans_le ht
  waiting x hx := by
    rcases hw x hx with hx | heq
    · exact h.waiting x hx
    · rw [heq]
      exact fun hmem => Nat.lt_irrefl _ (h.lt _ hmem)
  last x hx := by
    obtain ⟨y, hy, hticket⟩ := hh x hx
    rw [← hticket]
    exact h.last y hy
  granted := by rw [hg.1, hg.2, h.granted]

theorem acquire (h : Queued holders p) (ha : p.Answers) {ticket : Nat} {slot : Slot}
    (hw : (ticket, slot) ∈ p.waiting) :
    Queued (holders ++ [ticket]) { p with
      holder := some ⟨ticket, .writing slot⟩, waiting := p.waiting.filter (·.1 ≠ ticket) } := by
  have hpending : ticket ∈ p.pending :=
    List.mem_append_right _ (List.mem_map_of_mem (f := Prod.fst) hw)
  have hnone : p.granted? ticket = none := by
    apply granted?_eq_none
    intro hmem
    exact (List.nodup_append'.mp ha.nodup).2.2 hmem hpending
  constructor
  case nodup =>
    rw [List.nodup_append]
    refine ⟨h.nodup, by simp, ?_⟩
    rintro other hother _ hmem rfl
    obtain rfl := List.mem_singleton.mp hmem
    exact h.waiting _ hw hother
  case lt =>
    intro other hmem
    rcases List.mem_append.mp hmem with hmem | hmem
    · exact h.lt other hmem
    · obtain rfl := List.mem_singleton.mp hmem
      exact ha.lt _ (List.mem_append_right _ hpending)
  case waiting =>
    intro x hx
    obtain ⟨hx, hne⟩ := List.mem_filter.mp hx
    simpa [h.waiting x hx] using hne
  case last =>
    rintro x ⟨⟩
    exact List.getLast?_concat
  case granted =>
    rw [List.filterMap_append]
    have hone : [ticket].filterMap p.granted? = [] := List.filterMap_cons_none hnone
    exact (congrArg (holders.filterMap p.granted? ++ ·) hone).trans
      ((List.append_nil _).trans h.granted)

theorem finish (h : Queued holders p) (ha : p.Answers) {ticket s told : Nat}
    (hh : p.holder = some ⟨ticket, .announcing s told⟩) :
    Queued holders (p.finish ticket (.ok s)) := by
  obtain ⟨before, rfl⟩ := List.getLast?_eq_some_iff.mp (h.last _ hh)
  have hresults : ticket ∉ p.results.map Prod.fst := by
    intro hmem
    exact (List.nodup_append'.mp ha.nodup).2.2 hmem (by simp [pending, hh])
  have hnone := granted?_eq_none hresults
  have hnew : (p.finish ticket (.ok s)).granted? ticket = some s := by
    rw [granted?_finish, hnone, if_pos rfl]
    rfl
  have hold : before.filterMap (p.finish ticket (.ok s)).granted? =
      before.filterMap p.granted? := by
    apply List.filterMap_congr
    intro other hmem
    have hne : ticket ≠ other := by
      rintro rfl
      exact (List.nodup_append.mp h.nodup).2.2 _ hmem _ (by simp) rfl
    rw [granted?_finish, if_neg hne, Option.or_none]
  have hgranted := h.granted
  rw [List.filterMap_append, List.filterMap_cons_none hnone, List.filterMap_nil,
    List.append_nil] at hgranted
  refine ⟨h.nodup, h.lt, h.waiting, by simp [Pool.finish], ?_⟩
  rw [List.filterMap_append, hold, hgranted, List.filterMap_cons_some hnew, sequences_finish]
  rfl

/-- Moves by which nobody gets the lock. -/
theorem move (h : Queued holders p) (ha : p.Answers) (hm : p.Move deeds q)
    (hkeep : p.holder = none → q.holder = none) : Queued holders q := by
  cases hm with
  | come slot =>
      obtain ⟨waiting, results, heq, -⟩ := p.publish_eq slot
      refine h.keep ?_ ?_ ?_ (p.told_publish slot)
      · rw [heq]
        exact Nat.le_succ _
      · unfold publish
        split <;> simp +contextual [or_imp]
      · rw [heq]
        exact fun x hx => ⟨x, hx, rfl⟩
  | acquire ticket slot hh hw => exact absurd (hkeep hh) (by simp)
  | write ticket slot ring hh hr =>
      refine h.keep le_rfl (fun x hx => .inl hx) ?_ ⟨rfl, rfl⟩
      rintro x ⟨⟩
      exact ⟨_, hh, rfl⟩
  | tell ticket s told w hh hw hg hroom =>
      refine h.keep le_rfl (fun x hx => .inl hx) ?_ ⟨rfl, rfl⟩
      rintro x ⟨⟩
      exact ⟨_, hh, rfl⟩
  | giveUp ticket s told w hh hw hg =>
      exact h.keep le_rfl (fun x hx => .inl hx) (by simp [Pool.finish])
        (told_finish_error _ ticket .shutdown)
  | finish ticket s told hh ht => exact h.finish ha hh
  | withdraw ticket slot hh =>
      exact h.keep le_rfl (fun x hx => .inl hx) (by simp) ⟨rfl, rfl⟩
  | withdrawWaiting ticket =>
      exact h.keep le_rfl (fun x hx => .inl (List.mem_of_mem_filter hx))
        (fun x hx => ⟨x, hx, rfl⟩) ⟨rfl, rfl⟩
  | _ => exact h.keep le_rfl (fun x hx => .inl hx) (fun x hx => ⟨x, hx, rfl⟩) ⟨rfl, rfl⟩

end Queued

/-! ## Who withdraws -/

/-- Whoever gives up is waiting for the lock or for its place, and just leaves. -/
theorem cancel_eq_some {p q : Pool} {ticket : Nat} (h : p.cancel ticket = some q) :
    ∃ slot, (ticket, slot) ∈ p.unwritten ∧
      (p.holder = some ⟨ticket, .writing slot⟩ ∧ q = { p with holder := none } ∨
        (ticket, slot) ∈ p.waiting ∧
          q = { p with waiting := p.waiting.filter (·.1 ≠ ticket) }) := by
  have hwithdraw : cancel.withdraw p ticket = some q → ∃ slot, (ticket, slot) ∈ p.unwritten ∧
      (p.holder = some ⟨ticket, .writing slot⟩ ∧ q = { p with holder := none } ∨
        (ticket, slot) ∈ p.waiting ∧
          q = { p with waiting := p.waiting.filter (·.1 ≠ ticket) }) := by
    intro hq
    unfold cancel.withdraw at hq
    split at hq
    · next hany =>
        cases hq
        obtain ⟨⟨other, slot⟩, hmem, hother⟩ := List.any_eq_true.mp hany
        obtain rfl : other = ticket := of_decide_eq_true hother
        exact ⟨slot, List.mem_append_right _ hmem, .inr ⟨hmem, rfl⟩⟩
    · contradiction
  unfold cancel at h
  split at h
  · next holder slot hh =>
      split at h
      · next heq =>
          cases h
          subst heq
          exact ⟨slot, by simp [unwritten, hh], .inl ⟨hh, rfl⟩⟩
      · exact hwithdraw h
  · exact hwithdraw h

/-- A publisher that has come, is not under way and has not been told anything. -/
def Withdrawn (p : Pool) (ticket : Nat) : Prop := ticket < p.tickets ∧ ticket ∉ p.comers

theorem Answers.withdrawn_of_cancel {p q : Pool} {ticket : Nat} (h : p.Answers)
    (hc : p.cancel ticket = some q) : q.Withdrawn ticket := by
  obtain ⟨-, hpending, hdisjoint⟩ := List.nodup_append'.mp h.nodup
  obtain ⟨slot, -, ⟨hh, rfl⟩ | ⟨hw, rfl⟩⟩ := cancel_eq_some hc
  · rw [pending, hh] at hpending hdisjoint
    have hwaiting : ticket ∉ p.waiting.map Prod.fst := (List.nodup_cons.mp hpending).1
    have hresults : ticket ∉ p.results.map Prod.fst := fun hmem =>
      hdisjoint hmem List.mem_cons_self
    refine ⟨h.lt ticket (by simp [comers, pending, hh]), ?_⟩
    simp only [comers, pending, Option.map_none, Option.toList_none, List.nil_append]
    exact fun hmem => (List.mem_append.mp hmem).elim hresults hwaiting
  · have hmem : ticket ∈ p.waiting.map Prod.fst := List.mem_map_of_mem (f := Prod.fst) hw
    have hticket : ticket ∈ p.pending := List.mem_append_right _ hmem
    refine ⟨h.lt ticket (List.mem_append_right _ hticket), ?_⟩
    intro hcomer
    rcases List.mem_append.mp hcomer with hresult | hcomer
    · exact hdisjoint hresult hticket
    · rcases List.mem_append.mp hcomer with hholder | hwaiting
      · exact (List.nodup_append.mp hpending).2.2 _ hholder _ hmem rfl
      · obtain ⟨x, hx, rfl⟩ := List.mem_map.mp hwaiting
        simp at hx

theorem mem_comers {p : Pool} {ticket : Nat} : ticket ∈ p.comers ↔
    (∃ result, (ticket, result) ∈ p.results) ∨ (∃ stage, p.holder = some ⟨ticket, stage⟩) ∨
      ∃ slot, (ticket, slot) ∈ p.waiting := by
  have hholder : (∃ x, p.holder = some x ∧ x.ticket = ticket) ↔
      ∃ stage, p.holder = some ⟨ticket, stage⟩ := by
    constructor
    · rintro ⟨⟨_, stage⟩, hx, rfl⟩
      exact ⟨stage, hx⟩
    · rintro ⟨stage, hx⟩
      exact ⟨_, hx, rfl⟩
  simp [comers, pending, hholder]

/-- Nobody is under way or told anything who was not before, or has just come. -/
theorem Move.comers {p q : Pool} {deeds : Trail} (hm : p.Move deeds q) :
    p.tickets ≤ q.tickets ∧ ∀ ticket ∈ q.comers, ticket ∈ p.comers ∨ ticket = p.tickets := by
  cases hm with
  | come slot =>
      unfold publish
      split
      all_goals
        refine ⟨Nat.le_succ _, fun ticket hmem => ?_⟩
        simp only [mem_comers, List.mem_append, List.mem_singleton] at hmem ⊢
        grind
  | rest => exact ⟨le_rfl, fun _ hmem => .inl hmem⟩
  | _ =>
      refine ⟨le_rfl, fun ticket hmem => .inl ?_⟩
      simp only [mem_comers, Pool.finish, List.mem_append, List.mem_filter] at hmem ⊢
      grind

/-- Whoever has withdrawn writes nothing and is told nothing. -/
theorem Withdrawn.move {p q : Pool} {deeds : Trail} {ticket : Nat} (h : p.Withdrawn ticket)
    (hm : p.Move deeds q) :
    q.Withdrawn ticket ∧ ∀ s slot, .wrote ticket s slot ∉ deeds := by
  obtain ⟨htickets, hcomers⟩ := hm.comers
  refine ⟨⟨h.1.trans_le htickets, fun hmem => ?_⟩, fun s slot hmem => ?_⟩
  · rcases hcomers ticket hmem with hold | rfl
    · exact h.2 hold
    · exact Nat.lt_irrefl _ h.1
  · cases hm with
    | write other slot' ring hh hr =>
        simp only [List.mem_singleton, Deed.wrote.injEq] at hmem
        obtain ⟨rfl, -, -⟩ := hmem
        exact h.2 (by simp [Pool.comers, pending, hh])
    | turn i w _ w' ring report reports hw ht hr =>
        exact ht.not_mem_deeds.2.2.1 ticket s slot hmem
    | _ => simp at hmem

end Pool

/-- A pool that does not accept events never accepts any again. -/
theorem Pool.Move.running {p q : Pool} {deeds : Trail} (hm : p.Move deeds q)
    (hr : p.running = false) : q.running = false := by
  cases hm with
  | come slot =>
      obtain ⟨waiting, results, heq, -⟩ := p.publish_eq slot
      rw [heq]
      exact hr
  | giveUp ticket s told w hh hw hg => rfl
  | close hp => rfl
  | _ => exact hr

/-- Events are accepted until the pool is closed or a publisher finds a handler gone. Nobody fails
before that. -/
structure Pool.Halts (p : Pool) (past : Trail) : Prop where
  stopped_iff : p.running = false ↔ p.closed = true ∨ ∃ j s, .gaveUp j s ∈ past
  failed : ∀ ticket error, (ticket, .error error) ∈ p.results → p.running = false

namespace Pool.Halts

variable {p q : Pool} {past deeds : Trail}

theorem new (config : Config) (reporting : Bool) : (Pool.new config reporting).Halts [] := by
  constructor <;> simp [Pool.new]

/-- Moves that neither close the pool nor give up. -/
theorem keep (h : p.Halts past) (hr : q.running = p.running) (hc : q.closed = p.closed)
    (hg : ∀ j s, .gaveUp j s ∉ deeds)
    (hf : ∀ ticket error, (ticket, .error error) ∈ q.results →
      (ticket, .error error) ∈ p.results ∨ p.running = false) : q.Halts (past ++ deeds) where
  stopped_iff := by
    rw [hr, hc, h.stopped_iff]
    simp [hg]
  failed ticket error hmem := by
    rw [hr]
    exact (hf ticket error hmem).elim (h.failed ticket error) id

theorem move (h : p.Halts past) (hm : p.Move deeds q) : q.Halts (past ++ deeds) := by
  cases hm with
  | come slot =>
      obtain ⟨waiting, results, heq, -⟩ := p.publish_eq slot
      refine h.keep (by rw [heq]) (by rw [heq]) (by simp) fun ticket error hmem => ?_
      unfold publish at hmem
      split at hmem
      · exact .inl hmem
      · next hr => exact .inr (by simpa using hr)
  | giveUp ticket s told w hh hw hg =>
      exact ⟨⟨fun _ => .inr ⟨told, s, by simp⟩, fun _ => rfl⟩, fun _ _ _ => rfl⟩
  | finish ticket s told hh ht =>
      refine h.keep rfl rfl (by simp) fun other error hmem => ?_
      exact .inl (by simpa [Pool.finish] using hmem)
  | turn i w _ w' ring report reports hw ht hr =>
      exact h.keep rfl rfl ht.not_mem_deeds.1 fun _ _ hmem => .inl hmem
  | close hp => exact ⟨⟨fun _ => .inl rfl, fun _ => rfl⟩, fun _ _ _ => rfl⟩
  | _ => exact h.keep rfl rfl (by simp) fun _ _ hmem => .inl hmem

end Pool.Halts

/-- The publisher that gets the lock. -/
def Action.acquires? : Action → Option Nat
  | .acquire ticket => some ticket
  | _ => none

/-- What a publisher does before it writes: it comes, gets the lock, or leaves. -/
def Action.isPreliminary : Action → Bool
  | .publish _ | .acquire _ | .cancel _ => true
  | _ => false

namespace Floor

variable {σ : Type} {e : Environment σ} {f g : Floor σ} {a : Action}

theorem holder_of_act (h : f.act e a = some g) (ha : a.acquires? = none)
    (hf : f.pool.holder = none) : g.pool.holder = none := by
  cases a with
  | acquire ticket => cases ha
  | publish slot =>
      cases h
      obtain ⟨waiting, results, heq, -⟩ := f.pool.publish_eq slot
      rw [heq]
      exact hf
  | proceed =>
      obtain ⟨_, hq, -⟩ := Option.map_eq_some_iff.mp h
      simp [Pool.proceed, hf] at hq
  | cancel ticket =>
      obtain ⟨q, hq, rfl⟩ := Option.map_eq_some_iff.mp h
      obtain ⟨slot, -, ⟨-, rfl⟩ | ⟨-, rfl⟩⟩ := Pool.cancel_eq_some hq
      · rfl
      · exact hf
  | advance i =>
      obtain ⟨⟨q, scene⟩, hq, rfl⟩ := Option.map_eq_some_iff.mp h
      obtain ⟨w, next, -, -, rfl, -⟩ := Pool.advance_eq_some hq
      exact hf
  | stop i =>
      obtain ⟨q, hq, rfl⟩ := Option.map_eq_some_iff.mp h
      obtain ⟨w, -, rfl⟩ := Option.map_eq_some_iff.mp hq
      exact hf
  | close =>
      obtain ⟨-, rfl⟩ := close_of_act h
      exact hf
  | join =>
      obtain rfl := join_of_act h
      exact hf

theorem acquire_of_act {ticket : Nat} (h : f.act e (.acquire ticket) = some g) :
    f.pool.holder = none ∧ ∃ slot, (ticket, slot) ∈ f.pool.waiting ∧ g = { f with
      pool := { f.pool with
        holder := some ⟨ticket, .writing slot⟩
        waiting := f.pool.waiting.filter (·.1 ≠ ticket) } } := by
  obtain ⟨q, hq, rfl⟩ := Option.map_eq_some_iff.mp h
  unfold Pool.acquire at hq
  split at hq
  · next other slot hh hf =>
      cases hq
      obtain rfl : other = ticket := by simpa using List.find?_some hf
      exact ⟨hh, slot, List.mem_of_find?_eq_some hf, rfl⟩
  · contradiction

/-- Before it writes, a publisher touches neither the ring nor the sequence nor an inbox. -/
theorem untouched_of_preliminary (ha : a.isPreliminary) (h : f.act e a = some g) :
    g.pool.ring = f.pool.ring ∧ g.pool.next = f.pool.next ∧ g.pool.workers = f.pool.workers := by
  cases a with
  | publish slot =>
      cases h
      obtain ⟨waiting, results, heq, -⟩ := f.pool.publish_eq slot
      rw [heq]
      exact ⟨rfl, rfl, rfl⟩
  | acquire ticket =>
      obtain ⟨-, slot, -, rfl⟩ := acquire_of_act h
      exact ⟨rfl, rfl, rfl⟩
  | cancel ticket =>
      obtain ⟨q, hq, rfl⟩ := Option.map_eq_some_iff.mp h
      obtain ⟨slot, -, ⟨-, rfl⟩ | ⟨-, rfl⟩⟩ := Pool.cancel_eq_some hq
      · exact ⟨rfl, rfl, rfl⟩
      · exact ⟨rfl, rfl, rfl⟩
  | _ => cases ha

/-- Queues of publishers go on as queues of publishers. -/
theorem queued_of_act {holders : List Nat} (hq : f.pool.Queued holders) (ha : f.pool.Answers)
    (h : f.act e a = some g) : g.pool.Queued (holders ++ a.acquires?.toList) := by
  cases hacq : a.acquires? with
  | none =>
      rw [Option.toList_none, List.append_nil]
      exact hq.move ha (move_of_act h) (holder_of_act h hacq)
  | some ticket =>
      obtain rfl : a = .acquire ticket := by
        cases a <;> cases hacq
        rfl
      obtain ⟨-, slot, hw, rfl⟩ := acquire_of_act h
      exact hq.acquire ha hw

end Floor

/-- A run, with the publishers that have got the lock so far, in this order. -/
inductive Succession {σ : Type} (e : Environment σ) (rely : Site σ → Site σ → Prop)
    (start : Floor σ) : List Nat → Trail → Floor σ → Prop where
  | start : Succession e rely start [] [] start
  | act {holders past f a g} : Succession e rely start holders past f → f.act e a = some g →
      Succession e rely start (holders ++ a.acquires?.toList) (past ++ f.deeds a g) g
  | meanwhile {holders past f site} : Succession e rely start holders past f →
      rely f.scene.toSite site →
      Succession e rely start holders past { f with scene := f.scene.moveTo site }

namespace Run

variable {σ : Type} {e : Environment σ} {rely : Site σ → Site σ → Prop} {start f : Floor σ}
  {past : Trail}

theorem exists_succession (h : Run e rely start past f) :
    ∃ holders, Succession e rely start holders past f := by
  induction h with
  | start => exact ⟨[], .start⟩
  | act _ hact ih =>
      obtain ⟨holders, hs⟩ := ih
      exact ⟨_, hs.act hact⟩
  | meanwhile _ hrely ih =>
      obtain ⟨holders, hs⟩ := ih
      exact ⟨holders, hs.meanwhile hrely⟩

theorem running_eq_false (h : Run e rely start past f) (hr : start.pool.running = false) :
    f.pool.running = false :=
  h.invariant (I := fun p _ => p.running = false) hr fun _ _ _ _ hp hm => hm.running hp

theorem halts {config : Config} {reporting : Bool} {scene : Scene σ}
    (h : Run e rely (.opening config reporting scene) past f) : f.pool.Halts past :=
  h.invariant (I := Pool.Halts) (.new config reporting) fun _ _ _ _ hp hm => hp.move hm

theorem withdrawn {ticket : Nat} (h : Run e rely start past f)
    (hw : start.pool.Withdrawn ticket) :
    f.pool.Withdrawn ticket ∧ ∀ s slot, .wrote ticket s slot ∉ past := by
  refine h.invariant
    (I := fun p past => p.Withdrawn ticket ∧ ∀ s slot, .wrote ticket s slot ∉ past)
    ⟨hw, by simp⟩ ?_
  rintro p past deeds q ⟨hp, hpast⟩ hm
  obtain ⟨hq, hdeeds⟩ := hp.move hm
  refine ⟨hq, fun s slot hmem => ?_⟩
  exact (List.mem_append.mp hmem).elim (hpast s slot) (hdeeds s slot)

theorem counted {config : Config} {reporting : Bool} {scene : Scene σ}
    (h : Run e rely (.opening config reporting scene) past f) : f.pool.Counted past := by
  have hall : f.pool.Sound config.handlers.toNat past ∧ f.pool.Counted past := by
    refine h.invariant (I := fun p past => p.Sound config.handlers.toNat past ∧ p.Counted past)
      ⟨.new config reporting, .new config reporting⟩ ?_
    rintro p past deeds q ⟨hs, hc⟩ hm
    exact ⟨hs.move hm, hc.move hs.staffed hs.positioned hm⟩
  exact hall.2

end Run

namespace Succession

variable {σ : Type} {e : Environment σ} {rely : Site σ → Site σ → Prop} {start f : Floor σ}
  {holders : List Nat} {past : Trail}

theorem run (h : Succession e rely start holders past f) : Run e rely start past f := by
  induction h with
  | start => exact .start
  | act _ hact ih => exact ih.act hact
  | meanwhile _ hrely ih => exact ih.meanwhile hrely

theorem append_replay (h : Succession e rely start holders past f) (actions : List Action)
    {deeds : Trail} {last : Floor σ} (hr : f.replay e actions = some (deeds, last)) :
    Succession e rely start (holders ++ actions.filterMap Action.acquires?) (past ++ deeds)
      last := by
  induction actions generalizing holders past f deeds with
  | nil =>
      cases hr
      simpa using h
  | cons a actions ih =>
      simp only [Floor.replay, Option.bind_eq_bind, Option.bind_eq_some_iff, Option.pure_def,
        Option.some.injEq, Prod.mk.injEq, Prod.exists] at hr
      obtain ⟨g, hg, later, last', hlater, rfl, rfl⟩ := hr
      have hone : (a :: actions).filterMap Action.acquires? =
          a.acquires?.toList ++ actions.filterMap Action.acquires? := by
        cases ha : a.acquires? <;> simp [ha]
      rw [hone, ← List.append_assoc, ← List.append_assoc]
      exact ih (h.act hg) hlater

theorem queued {config : Config} {reporting : Bool} {scene : Scene σ}
    (h : Succession e rely (.opening config reporting scene) holders past f) :
    f.pool.Queued holders := by
  induction h with
  | start => exact .new config reporting
  | act hs hact ih => exact Floor.queued_of_act ih hs.run.answers hact
  | meanwhile _ _ ih => exact ih

end Succession

/-- What publishers are told, on a floor to which a run has come in which these publishers have got
the lock. -/
structure Floor.Sequenced {σ : Type} (e : Environment σ) (rely : Site σ → Site σ → Prop)
    (holders : List Nat) (past : Trail) (f : Floor σ) : Prop where
  /-- Nobody gets the lock twice. -/
  once : holders.Nodup
  /-- Whoever succeeds has got the lock, and is told one sequence. -/
  held : ∀ ticket s, (ticket, .ok s) ∈ f.pool.results ↔
    ticket ∈ holders ∧ f.pool.granted? ticket = some s
  /-- In the order of the lock these are 0, 1, 2 and so on. -/
  inOrder : ∃ k, holders.filterMap f.pool.granted? = List.range k
  /-- Nobody is told a sequence from one on with which somebody has failed. -/
  failed : ∀ ticket s slot error, .wrote ticket s slot ∈ past →
    (ticket, .error error) ∈ f.pool.results → ∀ other t, (other, .ok t) ∈ f.pool.results → t < s
  /-- Events are accepted until the pool is closed or a publisher finds a handler gone. -/
  accepting : f.pool.running = false ↔ f.pool.closed = true ∨ ∃ i s, .gaveUp i s ∈ past
  /-- Whoever fails has stopped the pool, or has found it stopped. -/
  halted : ∀ ticket error, (ticket, .error error) ∈ f.pool.results → f.pool.running = false
  /-- So has whoever closes it. -/
  closing : ∀ g, f.act e .close = some g → g.pool.closed = true ∧ g.pool.running = false
  /-- A pool that has stopped to accept events never accepts any again. -/
  stopped : f.pool.running = false → ∀ later g, Run e rely f later g → g.pool.running = false
  /-- It turns publishers away, and nothing else about it changes by that. -/
  refused : f.pool.running = false → ∀ slot, f.act e (.publish slot) = some { f with
    pool := { f.pool with
      tickets := f.pool.tickets + 1
      results := f.pool.results ++ [(f.pool.tickets, .error .shutdown)] } }
  /-- To come, to get the lock and to leave again changes neither the ring nor the sequence nor an
  inbox. -/
  untouched : ∀ a g, a.isPreliminary → f.act e a = some g →
    g.pool.ring = f.pool.ring ∧ g.pool.next = f.pool.next ∧ g.pool.workers = f.pool.workers
  /-- Whoever leaves has not written, never writes and is told nothing. -/
  withdrawn : ∀ ticket g, f.act e (.cancel ticket) = some g → ∀ later g', Run e rely g later g' →
    (∀ s slot, .wrote ticket s slot ∉ past ++ later) ∧ ∀ result, (ticket, result) ∉ g'.pool.results

/-- One publisher withdraws while it waits for its place, two succeed after one another. Then a
handler ends, and two fail, of whom the second had come before all that. The last one is turned
away. -/
def Rehearsal.succession : List Action :=
  let event := Slot.holding delivery false
  let goOn (k i : Nat) : List Action := List.replicate k (.advance i)
  List.flatten
    [[.publish event, .publish event, .publish event],
      [.acquire 1, .proceed, .proceed, .proceed, .proceed, .acquire 0, .cancel 0],
      goOn 4 1, goOn 11 0,
      [.publish event, .acquire 3, .proceed, .proceed, .proceed, .proceed],
      goOn 3 1, goOn 3 0,
      [.publish event, .stop 0, .acquire 4, .proceed, .proceed, .acquire 2, .proceed, .proceed],
      [.publish event]]

namespace Succession

variable {σ : Type} {e : Environment σ} {rely : Site σ → Site σ → Prop} {config : Config}
  {reporting : Bool} {scene : Scene σ} {f : Floor σ} {holders : List Nat} {past : Trail}

theorem mem_sequences_iff (h : Succession e rely (.opening config reporting scene) holders past f)
    {s : Nat} : s ∈ f.pool.sequences ↔ s < f.pool.sequences.length := by
  conv_lhs => rw [h.run.counted.range]
  exact List.mem_range

/-- Whoever is told a sequence has got the lock. -/
theorem mem_holders (h : Succession e rely (.opening config reporting scene) holders past f)
    {ticket s : Nat} (hresult : (ticket, .ok s) ∈ f.pool.results) : ticket ∈ holders := by
  have htickets := h.run.ticketed
  -- somebody who had the lock was told the sequence, and only one publisher wrote under it
  have hs : s ∈ holders.filterMap f.pool.granted? := by
    rw [h.queued.granted]
    exact Pool.mem_sequences.mpr ⟨ticket, hresult⟩
  obtain ⟨other, hother, hgranted⟩ := List.mem_filterMap.mp hs
  obtain ⟨slot, hwrote⟩ := htickets.result ticket s hresult
  obtain ⟨slot', hwrote'⟩ :=
    htickets.result other s (h.run.answers.granted?_eq_some_iff.mp hgranted)
  rwa [(htickets.wrote_eq ticket other s s slot slot' hwrote hwrote').mpr rfl]

/-- A sequence with which somebody has failed is above all that publishers are told. -/
theorem lt_of_failed (h : Succession e rely (.opening config reporting scene) holders past f)
    {ticket s : Nat} {slot : Slot} {error : PublishError} (hwrote : .wrote ticket s slot ∈ past)
    (herror : (ticket, .error error) ∈ f.pool.results) {other t : Nat}
    (hresult : (other, .ok t) ∈ f.pool.results) : t < s := by
  have htickets := h.run.ticketed
  by_contra hle
  have ht := h.mem_sequences_iff.mp (Pool.mem_sequences.mpr ⟨other, hresult⟩)
  -- then the failed sequence was told as well, to the one who wrote under it
  obtain ⟨winner, hwinner⟩ :=
    Pool.mem_sequences.mp (h.mem_sequences_iff.mpr (by omega : s < f.pool.sequences.length))
  obtain ⟨slot', hwrote'⟩ := htickets.result winner s hwinner
  obtain rfl := (htickets.wrote_eq winner ticket s s slot' slot hwrote' hwrote).mpr rfl
  have hsame := (h.run.answers.result_eq hwinner).2 _ herror
  contradiction

/-- Publishers are told the sequences from zero on in the order in which they get the lock, and
none from the first one on with which one of them has failed. Those who are turned away, and those
who leave before they have written, leave no trace. -/
theorem sequenced (h : Succession e rely (.opening config reporting scene) holders past f) :
    f.Sequenced e rely holders past where
  once := h.queued.nodup
  held := by
    intro ticket s
    rw [h.run.answers.granted?_eq_some_iff]
    exact ⟨fun hresult => ⟨h.mem_holders hresult, hresult⟩, And.right⟩
  inOrder := ⟨_, h.queued.granted.trans h.run.counted.range⟩
  failed := fun _ _ _ _ hwrote herror _ _ hresult => h.lt_of_failed hwrote herror hresult
  accepting := h.run.halts.stopped_iff
  halted := h.run.halts.failed
  closing := by
    intro g hact
    obtain ⟨-, rfl⟩ := Floor.close_of_act hact
    exact ⟨rfl, rfl⟩
  stopped := fun hr later g hl => hl.running_eq_false hr
  refused := by
    intro hr slot
    simp [Floor.act, Pool.publish, hr]
  untouched := fun a g ha hact => Floor.untouched_of_preliminary ha hact
  withdrawn := by
    intro ticket g hact later g' hl
    obtain ⟨q, hq, rfl⟩ := Option.map_eq_some_iff.mp hact
    obtain ⟨slot, hunwritten, -⟩ := Pool.cancel_eq_some hq
    obtain ⟨⟨-, hcomers⟩, hlater⟩ := hl.withdrawn (h.run.answers.withdrawn_of_cancel hq)
    constructor
    · intro s slot' hmem
      exact (List.mem_append.mp hmem).elim (h.run.ticketed.fresh _ hunwritten s slot')
        (hlater s slot')
    · intro result hmem
      exact hcomers (Pool.mem_comers.mpr (.inl ⟨result, hmem⟩))

/-- The succession: the second publisher gets the lock first. -/
theorem sequenced_rehearsal : ∃ past f,
    Succession (Scripted.environment false) (fun _ _ => False) Rehearsal.start [1, 0, 3, 4, 2] past
        f ∧
      f.pool.results = [(1, .ok 0), (3, .ok 1), (4, .error .shutdown), (2, .error .shutdown),
        (5, .error .shutdown)] ∧
      f.Sequenced (Scripted.environment false) (fun _ _ => False) [1, 0, 3, 4, 2] past := by
  have hend : (Rehearsal.start.replay (Scripted.environment false) Rehearsal.succession).any
      fun (_, f) => f.pool.results = [(1, .ok 0), (3, .ok 1), (4, .error .shutdown),
        (2, .error .shutdown), (5, .error .shutdown)] := by
    decide +kernel
  obtain ⟨⟨past, f⟩, hr, hf⟩ := (Option.any_eq_true _ _).mp hend
  have hholders : [] ++ Rehearsal.succession.filterMap Action.acquires? = [1, 0, 3, 4, 2] := rfl
  have hstart : Succession (Scripted.environment false) (fun _ _ => False) Rehearsal.start [] []
      Rehearsal.start := .start
  have hrun := hstart.append_replay Rehearsal.succession hr
  rw [hholders] at hrun
  exact ⟨past, f, hrun, of_decide_eq_true hf, sequenced hrun⟩

end Succession

end ShardedDelivery
