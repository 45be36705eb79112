import ShardedDelivery.Proofs.Pool.Move

/-! # The staff of a pool

A handler keeps its role for good. It is gone only if it was stopped or the pool is closed, and
a closed pool has no publishers. -/

namespace ShardedDelivery

/-- After one worker has changed, each worker is the changed one or as before. -/
theorem eq_or_of_getElem?_set {ws : List Worker} {i j : Nat} {w v : Worker}
    (h : (ws.set i w)[j]? = some v) : j = i ∧ v = w ∨ j ≠ i ∧ ws[j]? = some v := by
  rw [List.getElem?_set] at h
  split at h
  · rename_i hij
    split at h
    · exact Or.inl ⟨hij.symm, (Option.some.inj h).symm⟩
    · contradiction
  · rename_i hij
    exact Or.inr ⟨fun hji => hij hji.symm, h⟩

theorem getElem?_set_self_of_some {ws : List Worker} {i : Nat} {w v : Worker}
    (h : ws[i]? = some v) : (ws.set i w)[i]? = some w := by
  obtain ⟨hi, -⟩ := List.getElem?_eq_some_iff.mp h
  simp [hi]

namespace Worker.Turn

variable {i : Nat} {closed : Bool} {w w' : Worker} {ring ring' : Ring} {deeds : List Deed}
  {report : Option Report}

theorem role_eq (h : w.Turn i closed ring deeds w' ring' report) :
    w'.handler.role = w.handler.role := by
  cases h with
  | pass s slot handler hs hc hh => exact hh
  | begin s slot d handler plan hs hc hh hp => exact hh
  | work s d handler stage calls hs hn hb hh hc hr hk => exact hh
  | _ => rfl

/-- A handler that takes a turn is still there. -/
theorem stage_ne (h : w.Turn i closed ring deeds w' ring' report) : w.stage ≠ .ended := by
  cases h with
  | work s d handler stage calls hs hn hb hh hc hr hk =>
      intro he
      simp [he, Stage.busy?] at hs
  | receive s rest hs hi => simp [hs]
  | leave hs hi hc => simp [hs]
  | claim s hs => simp [hs]
  | release s slot hs => simp [hs]
  | pass s slot handler hs hc hh => simp [hs]
  | begin s slot d handler plan hs hc hh hp => simp [hs]
  | report s d report hs => simp [hs]

/-- A handler ends by itself only when the pool is closed and nothing is left to do. -/
theorem closed_of_ended (h : w.Turn i closed ring deeds w' ring' report)
    (he : w'.stage = .ended) : closed ∧ w.stage = .idle ∧ w.inbox = [] ∧ deeds = [] := by
  cases h with
  | leave hs hi hc => exact ⟨hc, hs, hi, rfl⟩
  | work s d handler stage calls hs hn hb hh hc hr hk =>
      simp [show stage = .ended from he, Stage.busy?] at hb
  | _ => simp at he

/-- What a turn leaves on the trail is about its own handler. -/
theorem not_mem_deeds (h : w.Turn i closed ring deeds w' ring' report) :
    (∀ j s, .gaveUp j s ∉ deeds) ∧ (∀ j, .stopped j ∉ deeds) ∧
      (∀ ticket s slot, .wrote ticket s slot ∉ deeds) ∧
        ∀ ticket slot, .came ticket slot ∉ deeds := by
  cases h with
  | work s d handler stage calls hs hn hb hh hc hr hk => cases stage <;> simp [Stage.recording]
  | _ => simp

end Worker.Turn

/-- An event is written only by the publisher with the lock, under the next sequence. -/
theorem Pool.Move.write_of_mem {p q : Pool} {deeds : Trail} (h : p.Move deeds q)
    {ticket s : Nat} {slot : Slot} (hmem : .wrote ticket s slot ∈ deeds) :
    s = p.next ∧ ∃ ring, p.ring.write? p.next slot = some ring := by
  cases h with
  | write ticket' slot' ring hh hr =>
      simp only [List.mem_singleton, Deed.wrote.injEq] at hmem
      obtain ⟨rfl, rfl, rfl⟩ := hmem
      exact ⟨rfl, ring, hr⟩
  | turn i w _ w' ring report reports hw ht hr => exact absurd hmem (ht.not_mem_deeds.2.2.1 _ _ _)
  | _ => simp at hmem

namespace Pool

/-- Who works in a pool of `n` handlers, and why a handler may be gone. -/
structure Staffed (n : Nat) (p : Pool) (past : Trail) : Prop where
  size : p.workers.length = n
  role : ∀ i (w : Worker), p.workers[i]? = some w → w.handler.role = (i, n, p.config.queue)
  shut : p.closed → p.holder = none ∧ p.waiting = [] ∧ p.running = false
  gone : ∀ i (w : Worker), p.workers[i]? = some w → w.stage = .ended → .stopped i ∈ past ∨ p.closed
  gaveUp : ∀ i s, .gaveUp i s ∈ past →
    .stopped i ∈ past ∧ ∃ w, p.workers[i]? = some w ∧ w.stage = .ended

namespace Staffed

variable {n : Nat} {p q : Pool} {past deeds : Trail}

theorem new (config : Config) (reporting : Bool) :
    Staffed config.handlers.toNat (.new config reporting) [] where
  size := by simp [Pool.new]
  role := by
    intro i w hw
    simp only [Pool.new, List.getElem?_map, Option.map_eq_some_iff] at hw
    obtain ⟨j, hj, rfl⟩ := hw
    obtain ⟨hlt, rfl⟩ := List.getElem?_eq_some_iff.mp hj
    have hpos : 0 < config.handlers.toNat := config.handlers_pos
    simp only [Handler.role, Handler.new, Pool.new, Prod.mk.injEq, List.getElem_range, true_and,
      and_true]
    omega
  shut := by simp [Pool.new]
  gone := by
    intro i w hw he
    simp only [Pool.new, List.getElem?_map, Option.map_eq_some_iff] at hw
    obtain ⟨j, -, rfl⟩ := hw
    simp at he
  gaveUp := by simp

/-- Moves that leave the workers as they are. -/
theorem keep (h : Staffed n p past) (hw : q.workers = p.workers) (hc : q.config = p.config)
    (hs : q.closed → q.holder = none ∧ q.waiting = [] ∧ q.running = false)
    (hclosed : p.closed → q.closed) (hd : ∀ i s, .gaveUp i s ∉ deeds) :
    Staffed n q (past ++ deeds) where
  size := by rw [hw, h.size]
  role := by rw [hw, hc]; exact h.role
  shut := hs
  gone := by
    intro i w hi he
    rw [hw] at hi
    rcases h.gone i w hi he with hstop | hcl
    · exact Or.inl (List.mem_append_left _ hstop)
    · exact Or.inr (hclosed hcl)
  gaveUp := by
    intro i s hmem
    rcases List.mem_append.mp hmem with hmem | hmem
    · obtain ⟨hstop, hgone⟩ := h.gaveUp i s hmem
      exact ⟨List.mem_append_left _ hstop, hw ▸ hgone⟩
    · exact absurd hmem (hd i s)

/-- Moves that change one worker, which stays what it is and is gone only with a reason. -/
theorem change (h : Staffed n p past) {i : Nat} {w w' : Worker} (hi : p.workers[i]? = some w)
    (hw : q.workers = p.workers.set i w') (hc : q.config = p.config)
    (hrole : w'.handler.role = w.handler.role) (hstays : w.stage = .ended → w'.stage = .ended)
    (hreason : w'.stage = .ended → .stopped i ∈ past ++ deeds ∨ q.closed)
    (hs : q.closed → q.holder = none ∧ q.waiting = [] ∧ q.running = false)
    (hclosed : p.closed → q.closed) (hd : ∀ j s, .gaveUp j s ∉ deeds) :
    Staffed n q (past ++ deeds) where
  size := by rw [hw, List.length_set, h.size]
  role := by
    intro j v hv
    rw [hw] at hv
    rcases eq_or_of_getElem?_set hv with ⟨rfl, rfl⟩ | ⟨-, hv⟩
    · rw [hrole, hc, h.role j w hi]
    · rw [hc]
      exact h.role j v hv
  shut := hs
  gone := by
    intro j v hv he
    rw [hw] at hv
    rcases eq_or_of_getElem?_set hv with ⟨rfl, rfl⟩ | ⟨-, hv⟩
    · exact hreason he
    · rcases h.gone j v hv he with hstop | hcl
      · exact Or.inl (List.mem_append_left _ hstop)
      · exact Or.inr (hclosed hcl)
  gaveUp := by
    intro j s hmem
    rcases List.mem_append.mp hmem with hmem | hmem
    · obtain ⟨hstop, v, hv, he⟩ := h.gaveUp j s hmem
      refine ⟨List.mem_append_left _ hstop, ?_⟩
      rw [hw]
      by_cases hji : j = i
      · subst hji
        rw [hi] at hv
        cases hv
        exact ⟨w', getElem?_set_self_of_some hi, hstays he⟩
      · exact ⟨v, by rw [List.getElem?_set_ne (Ne.symm hji), hv], he⟩
    · exact absurd hmem (hd j s)

/-- In a closed pool nobody holds the lock. -/
theorem not_closed (h : Staffed n p past) {x : Publisher} (hx : p.holder = some x) :
    p.closed = false := by
  cases hc : p.closed with
  | false => rfl
  | true =>
      have hnone := (h.shut hc).1
      rw [hx] at hnone
      contradiction

theorem move (h : Staffed n p past) (hm : p.Move deeds q) : Staffed n q (past ++ deeds) := by
  cases hm with
  | come slot =>
      obtain ⟨waiting, results, heq, hsame⟩ := p.publish_eq slot
      rw [heq]
      refine h.keep rfl rfl ?_ id (by simp)
      intro hc
      obtain ⟨hholder, hwaiting, hrunning⟩ := h.shut hc
      exact ⟨hholder, (hsame hrunning).trans hwaiting, hrunning⟩
  | acquire ticket slot hh hw =>
      refine h.keep rfl rfl ?_ id (by simp)
      intro hc
      simp [(h.shut hc).2.1] at hw
  | write ticket slot ring hh hr =>
      refine h.keep rfl rfl ?_ id (by simp)
      intro hc
      simp [h.shut hc] at hh
  | tell ticket s told w hh hw hg hroom =>
      refine h.change hw rfl rfl rfl (fun he => he) (fun he => absurd he hg) ?_ id (by simp)
      intro hc
      simp [h.shut hc] at hh
  | giveUp ticket s told w hh hw hg =>
      have hopen := h.not_closed hh
      constructor
      · exact h.size
      · exact h.role
      · intro hc
        simp [Pool.finish, hopen] at hc
      · intro i v hv he
        rcases h.gone i v hv he with hstop | hc
        · exact Or.inl (List.mem_append_left _ hstop)
        · simp [hopen] at hc
      · intro i t hmem
        rcases List.mem_append.mp hmem with hmem | hmem
        · obtain ⟨hstop, hgone⟩ := h.gaveUp i t hmem
          exact ⟨List.mem_append_left _ hstop, hgone⟩
        · simp only [List.mem_singleton, Deed.gaveUp.injEq] at hmem
          obtain ⟨rfl, rfl⟩ := hmem
          rcases h.gone i w hw hg with hstop | hc
          · exact ⟨List.mem_append_left _ hstop, w, hw, hg⟩
          · simp [hopen] at hc
  | finish ticket s told hh ht =>
      refine h.keep rfl rfl ?_ id (by simp)
      intro hc
      simp [h.shut hc] at hh
  | withdraw ticket slot hh =>
      refine h.keep rfl rfl ?_ id (by simp)
      intro hc
      simp [h.shut hc] at hh
  | withdrawWaiting ticket =>
      refine h.keep rfl rfl ?_ id (by simp)
      intro hc
      simp [h.shut hc]
  | turn i w _ w' ring report reports hw ht hr =>
      refine h.change hw rfl rfl ht.role_eq (fun he => absurd he ht.stage_ne) ?_ h.shut id
        ht.not_mem_deeds.1
      intro he
      exact Or.inr (ht.closed_of_ended he).1
  | stop i w hw =>
      refine h.change hw rfl rfl rfl (fun _ => rfl) ?_ h.shut id (by simp)
      intro _
      exact Or.inl (by simp)
  | close hp =>
      refine h.keep rfl rfl ?_ (fun _ => rfl) (by simp)
      intro _
      simpa [Pool.pending] using hp
  | rest => simpa using h

theorem exists_worker (h : Staffed n p past) {i : Nat} (hi : i < n) :
    ∃ w : Worker, p.workers[i]? = some w := by
  rw [← h.size] at hi
  exact ⟨_, List.getElem?_eq_getElem hi⟩

theorem lt_of_getElem? (h : Staffed n p past) {i : Nat} {w : Worker}
    (hw : p.workers[i]? = some w) : i < n := by
  obtain ⟨hi, -⟩ := List.getElem?_eq_some_iff.mp hw
  rwa [h.size] at hi

/-- The announcement breaks off only where a handler was stopped. -/
theorem not_gaveUp (h : Staffed n p past) (hstop : ∀ i, .stopped i ∉ past) (i s : Nat) :
    .gaveUp i s ∉ past :=
  fun hmem => hstop i (h.gaveUp i s hmem).1

end Staffed

end Pool

end ShardedDelivery
