import ShardedDelivery.Proofs.Pool.Places

/-! # Shares

What a handler has in hand under a sequence is what falls to it of the event that was published
under that sequence, from the claim of the place to the report of the delivery. -/

namespace ShardedDelivery

namespace Trail

/-- The slot is what falls to handler `i` of `n` of the event of a sequence. -/
def Shares (n : Nat) (past : Trail) (i s : Nat) (slot : Slot) : Prop :=
  ∃ event, past.events[s]? = some event ∧ slot = event.shareOf n i

/-- The event of a sequence is this delivery, and falls to handler `i` of `n`. -/
def Assigns (n : Nat) (past : Trail) (i s : Nat) (d : Delivery) : Prop :=
  ∃ event, past.events[s]? = some event ∧ event.delivery = some d ∧
    d.subscription.channel.shard n = i

end Trail

/-- The report is about this delivery. -/
def Report.IsOf (report : Report) (d : Delivery) : Prop :=
  report.channel = d.subscription.channel ∧ report.message = d.message.id

/-- What a handler has in hand is its share. -/
def Stage.Faithful (n : Nat) (past : Trail) (i : Nat) : Stage → Prop
  | .claimed s slot | .released s slot => past.Shares n i s slot
  | .dispatching s d _ | .waiting s d _ _ _ => past.Assigns n i s d
  | .recorded s d report => past.Assigns n i s d ∧ report.IsOf d
  | _ => True

/-- What a handler did, it did with its share. -/
def Deed.Faithful (n : Nat) (past : Trail) : Deed → Prop
  | .claimed i s slot | .begun i s slot => past.Shares n i s slot
  | .called i s d _ => past.Assigns n i s d
  | .recorded i s report | .reported i s report => ∃ d, past.Assigns n i s d ∧ report.IsOf d
  | _ => True

namespace Trail

variable {n i s : Nat} {past past' : Trail}

theorem event_of_prefix {event : Slot} (he : past.events <+: past'.events)
    (hevent : past.events[s]? = some event) : past'.events[s]? = some event := by
  obtain ⟨later, hlater⟩ := he
  obtain ⟨hlt, -⟩ := List.getElem?_eq_some_iff.mp hevent
  rw [← hlater, List.getElem?_append_left hlt, hevent]

theorem Shares.mono {slot : Slot} (h : past.Shares n i s slot)
    (he : past.events <+: past'.events) : past'.Shares n i s slot := by
  obtain ⟨event, hevent, rfl⟩ := h
  exact ⟨event, event_of_prefix he hevent, rfl⟩

theorem Assigns.mono {d : Delivery} (h : past.Assigns n i s d)
    (he : past.events <+: past'.events) : past'.Assigns n i s d := by
  obtain ⟨event, hevent, hd⟩ := h
  exact ⟨event, event_of_prefix he hevent, hd⟩

/-- A sequence has one delivery, with one handler. -/
theorem Assigns.eq {j : Nat} {d d' : Delivery} (h : past.Assigns n i s d)
    (h' : past.Assigns n j s d') : d = d' ∧ i = j := by
  obtain ⟨event, hevent, hd, rfl⟩ := h
  obtain ⟨event', hevent', hd', rfl⟩ := h'
  rw [hevent, Option.some.injEq] at hevent'
  subst hevent'
  rw [hd, Option.some.injEq] at hd'
  subst hd'
  exact ⟨rfl, rfl⟩

/-- A handler whose share holds a delivery is the one that the delivery falls to. -/
theorem Shares.assigns {slot : Slot} {d : Delivery} (h : past.Shares n i s slot)
    (hd : slot.delivery = some d) : past.Assigns n i s d ∧ past.events[s]? = some slot := by
  obtain ⟨event, hevent, rfl⟩ := h
  unfold Slot.shareOf at hd ⊢
  split at hd
  · rename_i hfalls
    obtain ⟨d', hd', hi⟩ := Slot.fallsTo_iff.mp hfalls
    rw [hd, Option.some.injEq] at hd'
    subst hd'
    exact ⟨⟨event, hevent, hd, hi⟩, by rw [if_pos hfalls, hevent]⟩
  · simp [Slot.empty] at hd

/-- What is not empty of a share is the event as it was published. -/
theorem Shares.eq_of_ne {slot event : Slot} (h : past.Shares n i s slot) (hne : slot ≠ .empty)
    (hevent : past.events[s]? = some event) : slot = event ∧ event.fallsTo n i := by
  obtain ⟨event', hevent', rfl⟩ := h
  rw [hevent, Option.some.injEq] at hevent'
  subst hevent'
  unfold Slot.shareOf at hne ⊢
  split at hne
  · rename_i hfalls
    exact ⟨by rw [if_pos hfalls], hfalls⟩
  · contradiction

end Trail

theorem Stage.Faithful.mono {n i : Nat} {past past' : Trail} {stage : Stage}
    (h : stage.Faithful n past i) (he : past.events <+: past'.events) :
    stage.Faithful n past' i := by
  cases stage with
  | claimed s slot => exact Trail.Shares.mono h he
  | released s slot => exact Trail.Shares.mono h he
  | dispatching s d plan => exact Trail.Assigns.mono h he
  | waiting s d c mark rest => exact Trail.Assigns.mono h he
  | recorded s d report => exact ⟨h.1.mono he, h.2⟩
  | _ => trivial

theorem Deed.Faithful.mono {n : Nat} {past past' : Trail} {x : Deed} (h : x.Faithful n past)
    (he : past.events <+: past'.events) : x.Faithful n past' := by
  cases x with
  | claimed i s slot => exact Trail.Shares.mono h he
  | begun i s slot => exact Trail.Shares.mono h he
  | called i s d c => exact Trail.Assigns.mono h he
  | recorded i s report =>
      obtain ⟨d, hd, hof⟩ := h
      exact ⟨d, hd.mono he, hof⟩
  | reported i s report =>
      obtain ⟨d, hd, hof⟩ := h
      exact ⟨d, hd.mono he, hof⟩
  | _ => trivial

theorem Stage.assigns_of_busy {n i s : Nat} {past : Trail} {stage : Stage} {d : Delivery}
    (h : stage.Faithful n past i) (hb : stage.busy? = some (s, d)) : past.Assigns n i s d := by
  cases stage with
  | dispatching s' d' plan =>
      cases hb
      exact h
  | waiting s' d' c mark rest =>
      cases hb
      exact h
  | recorded s' d' report =>
      cases hb
      exact h.1
  | _ => contradiction

namespace Pool

/-- Everyone in a pool of `n` handlers works on their own share. -/
structure Shared (n : Nat) (p : Pool) (past : Trail) : Prop where
  stages : ∀ i (w : Worker), p.workers[i]? = some w → w.stage.Faithful n past i
  deeds : ∀ x ∈ past, x.Faithful n past

namespace Shared

variable {n : Nat} {p q : Pool} {past deeds : Trail}

theorem new (config : Config) (reporting : Bool) :
    Shared config.handlers.toNat (.new config reporting) [] where
  stages := by
    intro i w hw
    simp only [Pool.new, List.getElem?_map, Option.map_eq_some_iff] at hw
    obtain ⟨j, -, rfl⟩ := hw
    trivial
  deeds := by simp

/-- Moves that leave all handlers at their stages. -/
theorem keep (h : Shared n p past)
    (hw : ∀ (i : Nat) (w : Worker), q.workers[i]? = some w →
      ∃ v : Worker, p.workers[i]? = some v ∧ w.stage = v.stage)
    (hd : ∀ x ∈ deeds, x.Faithful n (past ++ deeds)) : Shared n q (past ++ deeds) where
  stages := by
    intro i w hi
    obtain ⟨v, hv, hstage⟩ := hw i w hi
    rw [hstage]
    exact (h.stages i v hv).mono (by simp)
  deeds := by
    intro x hx
    rcases List.mem_append.mp hx with hx | hx
    · exact (h.deeds x hx).mono (by simp)
    · exact hd x hx

/-- Moves that change the stage of one handler. -/
theorem change (h : Shared n p past) {i : Nat} {w' : Worker}
    (hw : q.workers = p.workers.set i w') (hs : w'.stage.Faithful n (past ++ deeds) i)
    (hd : ∀ x ∈ deeds, x.Faithful n (past ++ deeds)) : Shared n q (past ++ deeds) where
  stages := by
    intro j v hv
    rw [hw] at hv
    rcases eq_or_of_getElem?_set hv with ⟨rfl, rfl⟩ | ⟨-, hv⟩
    · exact hs
    · exact (h.stages j v hv).mono (by simp)
  deeds := by
    intro x hx
    rcases List.mem_append.mp hx with hx | hx
    · exact (h.deeds x hx).mono (by simp)
    · exact hd x hx

/-- What a turn of a handler leaves is faithful. -/
theorem turn (h : Shared n p past) (hs : Staffed n p past) (hp : Positioned n p past)
    (hl : Placed n p past) {i : Nat} {w w' : Worker} {ring : Ring} {report : Option Report}
    (hw : p.workers[i]? = some w) (ht : w.Turn i p.closed p.ring deeds w' ring report) :
    w'.stage.Faithful n (past ++ deeds) i ∧ ∀ x ∈ deeds, x.Faithful n (past ++ deeds) := by
  obtain ⟨hi, -⟩ := List.getElem?_eq_some_iff.mp hw
  rw [hs.size] at hi
  have hstage := (hp.stands i w hw).stage
  have hshare := h.stages i w hw
  have hpre : past.events <+: Trail.events (past ++ deeds) := by simp
  cases ht with
  | receive s rest hst hin => exact ⟨trivial, by simp [Deed.Faithful]⟩
  | leave hst hin hc => exact ⟨trivial, by simp⟩
  | claim s hst =>
      simp only [hst, Stage.At] at hstage
      obtain ⟨hhold, -, event, hevent⟩ := hp.holds hw hstage.1 hstage.2.2.1
      rw [Handler.owns_eq (hs.role i w hw)] at hpre ⊢
      have heq := hl.claim_eq hi hhold (Nat.le_of_eq hstage.2.1) hevent
      have hnew : past.Shares n i s (p.ring.claim s (Slot.fallsTo n i)).1 := ⟨event, hevent, heq⟩
      exact ⟨hnew.mono hpre, by simpa [Deed.Faithful] using hnew.mono hpre⟩
  | release s slot hst =>
      rw [hst] at hshare
      exact ⟨Trail.Shares.mono hshare hpre, by simp [Deed.Faithful]⟩
  | pass s slot handler hst hc hh =>
      rw [hst] at hshare
      exact ⟨trivial, by simpa [Deed.Faithful] using Trail.Shares.mono hshare hpre⟩
  | begin s slot d handler plan hst hc hh hplan =>
      rw [hst] at hshare
      have hd := (Handler.claim?_eq_some (hs.role i w hw) hc).1
      refine ⟨(hshare.assigns hd).1.mono hpre, ?_⟩
      simpa [Deed.Faithful] using Trail.Shares.mono hshare hpre
  | work s d handler stage calls hst hn hb hh hc hr hk =>
      have hd := (Stage.assigns_of_busy hshare hst).mono hpre
      have hnew : stage.Faithful n
          (past ++ (calls.map (.called i s d) ++ stage.recording i)) i := by
        cases stage with
        | dispatching s' d' plan =>
            cases hb
            exact hd
        | waiting s' d' c mark rest =>
            cases hb
            exact hd
        | recorded s' d' report =>
            cases hb
            exact ⟨hd, hr _ _ _ rfl⟩
        | _ => trivial
      refine ⟨hnew, ?_⟩
      intro x hx
      rcases List.mem_append.mp hx with hx | hx
      · obtain ⟨c, -, rfl⟩ := List.mem_map.mp hx
        exact hd
      · cases stage with
        | recorded s' d' report =>
            simp only [Stage.recording, List.mem_singleton] at hx
            subst hx
            exact ⟨d', hnew⟩
        | _ => simp [Stage.recording] at hx
  | report s d report hst =>
      rw [hst] at hshare
      refine ⟨trivial, ?_⟩
      simp only [List.mem_cons, List.not_mem_nil, or_false, forall_eq_or_imp, forall_eq]
      exact ⟨⟨d, hshare.1.mono hpre, hshare.2⟩, trivial⟩

theorem move (h : Shared n p past) (hs : Staffed n p past) (hp : Positioned n p past)
    (hl : Placed n p past) (hm : p.Move deeds q) : Shared n q (past ++ deeds) := by
  cases hm with
  | come slot =>
      obtain ⟨waiting, results, heq, -⟩ := p.publish_eq slot
      rw [heq]
      exact h.keep (fun i w hw => ⟨w, hw, rfl⟩) (by simp [Deed.Faithful])
  | tell ticket s told w hh hw hg hroom =>
      refine h.keep ?_ (by simp [Deed.Faithful])
      intro i v hv
      rcases eq_or_of_getElem?_set hv with ⟨rfl, rfl⟩ | ⟨-, hv⟩
      · exact ⟨w, hw, rfl⟩
      · exact ⟨v, hv, rfl⟩
  | turn i w _ w' ring report reports hw ht hr =>
      obtain ⟨hstage, hdeeds⟩ := h.turn hs hp hl hw ht
      exact h.change rfl hstage hdeeds
  | stop i w hw => exact h.change rfl trivial (by simp [Deed.Faithful])
  | rest => simpa using h
  | _ => exact h.keep (fun i w hw => ⟨w, hw, rfl⟩) (by simp [Deed.Faithful])

end Shared

/-- Everything that is so in a pool of `n` handlers, whatever its publishers and handlers do. -/
structure Sound (n : Nat) (p : Pool) (past : Trail) : Prop where
  staffed : Staffed n p past
  positioned : Positioned n p past
  placed : Placed n p past
  shared : Shared n p past

namespace Sound

theorem new (config : Config) (reporting : Bool) :
    Sound config.handlers.toNat (.new config reporting) [] :=
  ⟨.new config reporting, .new config reporting, .new config reporting, .new config reporting⟩

theorem move {n : Nat} {p q : Pool} {past deeds : Trail} (h : Sound n p past)
    (hm : p.Move deeds q) : Sound n q (past ++ deeds) where
  staffed := h.staffed.move hm
  positioned := h.positioned.move h.staffed hm
  placed := h.placed.move h.staffed h.positioned hm
  shared := h.shared.move h.staffed h.positioned h.placed hm

end Sound

end Pool

/-- Every pool that a run from the start comes to is sound. -/
theorem Run.sound {σ : Type} {e : Environment σ} {rely : Site σ → Site σ → Prop} {config : Config}
    {reporting : Bool} {scene : Scene σ} {past : Trail} {f : Floor σ}
    (h : Run e rely (.opening config reporting scene) past f) :
    f.pool.Sound config.handlers.toNat past :=
  h.invariant (Pool.Sound.new config reporting) fun _ _ _ _ hs hm => hs.move hm

end ShardedDelivery
