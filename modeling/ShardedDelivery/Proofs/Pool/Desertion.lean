import ShardedDelivery.Proofs.Pool.Pressure

/-! # Deserted places

A handler that ends keeps what it had heard of and not released. Giving up a sequence covers only
those who never heard of it, so a publisher that comes round to such a place waits for good. -/

namespace ShardedDelivery

namespace Pool

/-- A handler has ended after it had heard of the sequence and before it released it. -/
def Deserted (p : Pool) (past : Trail) (s : Nat) : Prop :=
  ∃ (i : Nat) (w : Worker), p.workers[i]? = some w ∧ w.isGone ∧ .told i s ∈ past ∧
    .released i s ∉ past

/-- A handler that has ended stays so, and gets nowhere any more. -/
theorem Move.ended {p q : Pool} {deeds : Trail} {i : Nat} {w : Worker} (hm : p.Move deeds q)
    (hw : p.workers[i]? = some w) (hg : w.isGone) :
    (∃ w' : Worker, q.workers[i]? = some w' ∧ w'.isGone) ∧ ∀ φ, Trail.reached deeds i φ = 0 := by
  cases hm with
  | come slot =>
      obtain ⟨waiting, results, heq, -⟩ := p.publish_eq slot
      rw [heq]
      exact ⟨⟨w, hw, hg⟩, by simp [Deed.passes]⟩
  | tell ticket s told v hh hv hthere hroom =>
      have hne : told ≠ i := by
        rintro rfl
        rw [hw, Option.some.injEq] at hv
        exact hthere (hv ▸ Worker.isGone_iff.mp hg)
      exact ⟨⟨w, by simpa [List.getElem?_set_ne hne] using hw, hg⟩, by simp [Deed.passes, hne]⟩
  | turn j v _ v' ring report reports hv ht hr =>
      have hne : j ≠ i := by
        rintro rfl
        rw [hw, Option.some.injEq] at hv
        exact ht.stage_ne (hv ▸ Worker.isGone_iff.mp hg)
      exact ⟨⟨w, by simpa [List.getElem?_set_ne hne] using hw, hg⟩, ht.reached_of_ne hne.symm⟩
  | stop j v hv =>
      refine ⟨?_, by simp [Deed.passes]⟩
      by_cases hji : j = i
      · subst hji
        exact ⟨_, getElem?_set_self_of_some hw, rfl⟩
      · exact ⟨w, by simpa [List.getElem?_set_ne hji] using hw, hg⟩
  | _ => exact ⟨⟨w, hw, hg⟩, by simp [Deed.passes]⟩

/-- No publisher can write where the place of a deserted sequence comes next. -/
theorem Sound.write?_eq_none_of_deserted {n s : Nat} {p : Pool} {past : Trail} (h : p.Sound n past)
    (hround : s + p.ring.capacity = p.next) (hd : p.Deserted past s) (slot : Slot) :
    p.ring.write? p.next slot = none := by
  obtain ⟨i, w, hw, -, htold, hunreleased⟩ := hd
  have hnumbered := h.positioned.numbered
  have hheld : p.Holds past i s :=
    ⟨Nat.le_of_not_lt (mt hnumbered.released_iff.mpr hunreleased),
      Or.inl (hnumbered.told_iff.mp htold)⟩
  cases hr : p.ring.write? p.next slot with
  | none => rfl
  | some ring =>
      have hfree := h.placed.free hr (h.staffed.lt_of_getElem? hw) hheld
      exact absurd (by rw [← hround, Nat.add_mod_right]) hfree

/-- Nothing is written to a place that is deserted, and it stays deserted. -/
theorem Sound.deserted_move {n s : Nat} {p q : Pool} {past deeds : Trail} (h : p.Sound n past)
    (hround : s + p.ring.capacity = p.next) (hd : p.Deserted past s) (hm : p.Move deeds q) :
    q.next = p.next ∧ q.Deserted (past ++ deeds) s := by
  have hblocked := h.write?_eq_none_of_deserted hround hd
  obtain ⟨i, w, hw, hg, htold, hunreleased⟩ := hd
  obtain ⟨⟨w', hw', hg'⟩, hreached⟩ := hm.ended hw hg
  refine ⟨?_, i, w', hw', hg', List.mem_append_left _ htold, ?_⟩
  · cases hm with
    | come slot =>
        obtain ⟨waiting, results, heq, -⟩ := p.publish_eq slot
        rw [heq]
    | write ticket slot ring hh hr => simp [hblocked slot] at hr
    | _ => rfl
  · rw [(h.move hm).positioned.numbered.released_iff, Trail.reached_append, hreached,
      Nat.add_zero, ← h.positioned.numbered.released_iff]
    exact hunreleased

end Pool

namespace Rehearsal

/-- One handler releases the event that is published, the other one ends without having looked at
it, and the next event comes. -/
def desertion : List Action :=
  [.publish (.holding delivery false), .acquire 0] ++ List.replicate 4 .proceed ++
    List.replicate 3 (.advance 0) ++
    [.stop 1, .publish (.holding delivery false), .acquire 1]

/-- The handler that is left has nothing to release. -/
theorem desertion_spec : ∃ past f,
    Run (Scripted.environment false) (fun _ _ => False) start past f ∧ f.pool.Blocked ∧
      f.pool.next = f.pool.ring.capacity ∧ f.pool.Deserted past 0 ∧
      ∀ w ∈ f.pool.workers, w.isGone ∨ ¬ w.Ahead .released 0 := by
  obtain ⟨past, f, hrun, hholder, hpending, hnext, hgone, htold, hunreleased, hleft⟩ :=
    exists_run start desertion
      (P := fun past f => f.pool.holder = some ⟨1, .writing (.holding delivery false)⟩ ∧
        (f.pool.ring.place f.pool.next).pending ≠ 0 ∧ f.pool.next = f.pool.ring.capacity ∧
        f.pool.workers[1]?.any (·.isGone) ∧ .told 1 0 ∈ past ∧ .released 1 0 ∉ past ∧
        f.pool.workers.all (fun w => w.isGone ∨ ¬ w.Ahead .released 0))
      (by decide +kernel)
  obtain ⟨w, hw, hg⟩ := (Option.any_eq_true _ _).mp hgone
  refine ⟨past, f, hrun, ⟨1, _, hholder, Ring.write?_eq_none_iff.mpr hpending⟩, hnext,
    ⟨1, w, hw, hg, htold, hunreleased⟩, fun v hv => ?_⟩
  simpa using List.all_eq_true.mp hleft v hv

end Rehearsal

namespace Run

variable {σ : Type} {e : Environment σ} {rely : Site σ → Site σ → Prop} {config : Config}
  {reporting : Bool} {scene : Scene σ} {past : Trail} {f : Floor σ}

/-- A place that is deserted when the ring comes round to it holds up all publishers for good. -/
theorem next_eq_of_deserted (h : Run e rely (.opening config reporting scene) past f) {s : Nat}
    (hround : s + config.ringSize.toNat = f.pool.next) (hd : f.pool.Deserted past s)
    {later : Trail} {g : Floor σ} (hl : Run e rely f later g) :
    g.pool.next = f.pool.next ∧ g.pool.Deserted (past ++ later) s := by
  induction hl with
  | start => exact ⟨rfl, by simpa using hd⟩
  | @act later g a g' hl hact ih =>
      obtain ⟨hnext, hdeserted⟩ := ih
      have hrun := h.trans hl
      rw [← hrun.capacity_eq, ← hnext] at hround
      obtain ⟨hnext', hdeserted'⟩ :=
        hrun.sound.deserted_move hround hdeserted (Floor.move_of_act hact)
      exact ⟨hnext'.trans hnext, by rwa [← List.append_assoc]⟩
  | meanwhile hl hrely ih => exact ih

/-- A blocked publisher waits for the sequence one round back: for a handler that is there and has
still to release it, or for one that has deserted it. In the second case no publisher ever writes
again. -/
theorem awaits_release_or_deserter (h : Run e rely (.opening config reporting scene) past f)
    (hb : f.pool.Blocked) :
    ∃ s, s + config.ringSize.toNat = f.pool.next ∧
      ((∃ w ∈ f.pool.workers, ¬ w.isGone ∧ w.Ahead .released s) ∨ f.pool.Deserted past s) ∧
      (f.pool.Deserted past s → ∀ later g, Run e rely f later g →
        g.pool.next = f.pool.next ∧
        ∀ ticket slot, g.pool.holder = some ⟨ticket, .writing slot⟩ → g.pool.Blocked) := by
  have hsound := h.sound
  obtain ⟨s, hround, i, hi, hunreleased, hheard⟩ := hsound.held_of_blocked h.spare hb
  rw [h.capacity_eq] at hround
  obtain ⟨w, hw⟩ := hsound.staffed.exists_worker hi
  have hnumbered := hsound.positioned.numbered
  refine ⟨s, hround, ?_, ?_⟩
  · by_cases hg : w.isGone
    · refine Or.inr ⟨i, w, hw, hg, hnumbered.told_iff.mpr hheard, ?_⟩
      rw [hnumbered.released_iff]
      exact Nat.not_lt.mpr hunreleased
    · have hahead := (hsound.ahead_iff hw hg (by simp)).mpr ⟨hunreleased, hheard⟩
      exact Or.inl ⟨w, List.mem_of_getElem? hw, hg, hahead⟩
  · intro hd later g hl
    obtain ⟨hnext, hdeserted⟩ := h.next_eq_of_deserted hround hd hl
    have hrun := h.trans hl
    rw [← hnext, ← hrun.capacity_eq] at hround
    exact ⟨hnext, fun ticket slot hholder =>
      ⟨ticket, slot, hholder, hrun.sound.write?_eq_none_of_deserted hround hdeserted slot⟩⟩

/-- In the desertion nothing is written any more after the first event. -/
theorem awaits_release_or_deserter_rehearsal : ∃ past f,
    Run (Scripted.environment false) (fun _ _ => False) Rehearsal.start past f ∧ f.pool.Blocked ∧
      ∀ later g, Run (Scripted.environment false) (fun _ _ => False) f later g →
        g.pool.next = f.pool.next := by
  obtain ⟨past, f, hrun, hblocked, hnext, hdeserted, -⟩ := Rehearsal.desertion_spec
  obtain ⟨s, hround, -, hgood⟩ := awaits_release_or_deserter hrun hblocked
  refine ⟨past, f, hrun, hblocked, fun later g hl => (hgood ?_ later g hl).1⟩
  obtain rfl : s = 0 := by rw [hnext, hrun.capacity_eq] at hround; omega
  exact hdeserted

/-- A blocked publisher need not wait for a handler that is there. -/
theorem exists_blocked_in_vain : ¬ ∀ past f,
    Run (Scripted.environment false) (fun _ _ => False) Rehearsal.start past f →
      f.pool.Blocked → ∃ s, s + f.pool.ring.capacity = f.pool.next ∧
        ∃ w ∈ f.pool.workers, ¬ w.isGone ∧ w.Ahead .released s := by
  intro hclaim
  obtain ⟨past, f, hrun, hblocked, hnext, -, hleft⟩ := Rehearsal.desertion_spec
  obtain ⟨s, hround, w, hw, hg, hahead⟩ := hclaim past f hrun hblocked
  obtain rfl : s = 0 := by omega
  exact (hleft w hw).elim hg fun hnot => hnot hahead

end Run

end ShardedDelivery
