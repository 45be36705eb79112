import ShardedDelivery.Ring.Shared

/-! # No notification is missed

A writer that waits for its place has listened before it looked at the count. Whoever brings the
count to zero after that has still to notify, so the writer never waits at a free place for a
notification that nobody owes. -/

namespace ShardedDelivery

/-- The sequence whose place a reader has brought to zero. -/
def Reader.duty? : Reader → Option Nat
  | .away => none
  | .clearing s | .notifying s => some s

/-- What a writer that listens has got from the notifier. -/
def Writer.since? {τ : Type} : Writer τ → Option τ
  | .listening _ _ since | .suspended _ _ since => some since
  | _ => none

namespace SharedRing

variable {ν τ : Type} {o : Notifier ν τ} {x y z : SharedRing ν τ} {s t i : Nat} {slot : Slot}
  {duty : Reader} {since : τ}

theorem actAll_nil (o : Notifier ν τ) (x : SharedRing ν τ) : x.actAll o [] = some x := rfl

theorem actAll_cons (o : Notifier ν τ) (x : SharedRing ν τ) (a : Access) (later : List Access) :
    x.actAll o (a :: later) = (x.act o a).bind (·.actAll o later) :=
  List.foldlM_cons

theorem actAll_append (o : Notifier ν τ) (x : SharedRing ν τ) (before later : List Access) :
    x.actAll o (before ++ later) = (x.actAll o before).bind (·.actAll o later) :=
  List.foldlM_append

/-! ## Without a break

Steps that are taken with nobody in between make up an operation of the ring. -/

theorem actAll_write {ring : Ring} (hw : x.writer = .away)
    (h : x.ring.write? s slot = some ring) :
    x.actAll o (.write s slot :: List.replicate 4 .proceed) =
      some { x with ring, notifier := (o.listen x.notifier).2 } := by
  rw [Ring.write?_eq] at h
  split at h
  · next hp =>
      rw [← Option.some.inj h]
      simp [actAll, act, proceed, hw, hp, List.replicate]
  · contradiction

theorem actAll_write_of_none (hw : x.writer = .away) (h : x.ring.write? s slot = none) :
    x.actAll o (.write s slot :: List.replicate 2 .proceed) =
      some { x with
        notifier := (o.listen x.notifier).2
        writer := .suspended s slot (o.listen x.notifier).1 } := by
  have hp := Ring.write?_eq_none_iff.mp h
  simp [actAll, act, proceed, hw, hp, List.replicate]

theorem act_finish_clearing (hi : x.readers[i]? = some (.clearing t)) :
    x.act o (.finish i) = some { x with
      ring := x.ring.clear t, readers := x.readers.set i (.notifying t) } := by
  simp [act, hi]

theorem act_finish_notifying (hi : x.readers[i]? = some (.notifying t)) :
    x.act o (.finish i) = some { x with
      notifier := o.notify x.notifier, readers := x.readers.set i .away } := by
  simp [act, hi]

theorem lower_of_last {readers : UInt64} (hp : (x.ring.place s).pending = readers)
    (duty : Reader) : x.lower i s readers duty =
      { x with ring := x.ring.lower s readers, readers := x.readers.set i duty } := by
  simp [lower, hp]

theorem lower_of_not_last {readers : UInt64} (hp : (x.ring.place s).pending ≠ readers)
    (duty : Reader) : x.lower i s readers duty =
      { x with ring := x.ring.lower s readers } := by
  simp [lower, hp]

theorem actAll_release (hi : x.readers[i]? = some .away) : ∃ k notifier,
    x.actAll o (.release i s :: List.replicate k (.finish i)) =
      some { x with ring := x.ring.release s, notifier } := by
  obtain ⟨hlt, haway⟩ := List.getElem?_eq_some_iff.mp hi
  have hrelease : x.act o (.release i s) = some (x.lower i s 1 (.notifying s)) := if_pos hi
  simp only [actAll_cons, hrelease, Option.bind_some, Ring.release_eq]
  by_cases hp : (x.ring.place s).pending = 1
  · refine ⟨1, o.notify x.notifier, ?_⟩
    rw [lower_of_last hp, List.replicate_one, actAll_cons,
      act_finish_notifying (List.getElem?_set_self hlt), Option.bind_some, actAll_nil,
      List.set_set, ← haway, List.set_getElem_self]
  · refine ⟨0, x.notifier, ?_⟩
    rw [lower_of_not_last hp, List.replicate_zero, actAll_nil]

theorem actAll_abandon (hi : x.readers[i]? = some .away) (readers : UInt64) : ∃ k notifier,
    x.actAll o (.abandon i s readers :: List.replicate k (.finish i)) =
      some { x with ring := x.ring.abandon s readers, notifier } := by
  obtain ⟨hlt, haway⟩ := List.getElem?_eq_some_iff.mp hi
  have habandon : x.act o (.abandon i s readers) =
      some (if readers = 0 then x else x.lower i s readers (.clearing s)) := if_pos hi
  simp only [actAll_cons, habandon, Option.bind_some, Ring.abandon_eq]
  by_cases hk : readers = 0
  · refine ⟨0, x.notifier, ?_⟩
    simp only [if_pos hk, List.replicate_zero, actAll_nil]
  · simp only [if_neg hk]
    by_cases hp : (x.ring.place s).pending = readers
    · refine ⟨2, o.notify x.notifier, ?_⟩
      rw [lower_of_last hp, if_pos hp, List.replicate_succ, List.replicate_one, actAll_cons,
        act_finish_clearing (List.getElem?_set_self hlt), Option.bind_some, List.set_set,
        actAll_cons, act_finish_notifying (List.getElem?_set_self hlt), Option.bind_some,
        actAll_nil, List.set_set, ← haway, List.set_getElem_self]
    · refine ⟨0, x.notifier, ?_⟩
      rw [lower_of_not_last hp, if_neg hp, List.replicate_zero, actAll_nil]

/-! ## Who owes a notification -/

/-- Somebody has brought the place of the sequence to zero, and has not yet notified. -/
def Owed (x : SharedRing ν τ) (s : Nat) : Prop :=
  ∃ (i : Nat) (duty : Reader) (t : Nat), x.readers[i]? = some duty ∧ duty.duty? = some t ∧
    t % x.ring.capacity = s % x.ring.capacity

theorem Owed.keep (h : x.Owed s) (hcapacity : y.ring.capacity = x.ring.capacity)
    (hdebts : ∀ (i : Nat) (duty : Reader) (t : Nat),
      x.readers[i]? = some duty → duty.duty? = some t →
      ∃ duty' : Reader, y.readers[i]? = some duty' ∧ duty'.duty? = some t) : y.Owed s := by
  obtain ⟨i, duty, t, hi, hduty, ht⟩ := h
  obtain ⟨duty', hi', hduty'⟩ := hdebts i duty t hi hduty
  exact ⟨i, duty', t, hi', hduty', by rwa [hcapacity]⟩

/-- A writer that is suspended has not missed the notification it waits for. -/
structure Alert (o : Notifier ν τ) (x : SharedRing ν τ) : Prop where
  /-- Whatever has been done with the notifier since, the writer began to listen before. -/
  listens : ∀ since, x.writer.since? = some since → ∃ n uses,
    since = (o.listen n).1 ∧ x.notifier = o.applyAll (o.listen n).2 uses
  unmissed : ∀ s slot since, x.writer = .suspended s slot since →
    o.isNotified x.notifier since ∨ (x.ring.place s).pending ≠ 0 ∨ x.Owed s

namespace Alert

/-- A writer that does not listen cannot miss anything. -/
theorem of_deaf (h : x.writer.since? = none) : Alert o x where
  listens since hs := by
    rw [h] at hs
    cases hs
  unmissed s slot since hs := by
    rw [hs] at h
    cases h

theorem proceed (h : Alert o x) (hx : x.proceed o = some y) : Alert o y := by
  obtain ⟨ring, notifier, writer, readers⟩ := x
  cases writer with
  | away => cases hx
  | arriving s slot =>
      cases hx
      refine ⟨?_, by rintro _ _ _ ⟨⟩⟩
      rintro _ ⟨⟩
      exact ⟨notifier, [], rfl, rfl⟩
  | listening s slot since =>
      simp only [SharedRing.proceed] at hx
      split at hx
      · cases hx
        exact of_deaf rfl
      · next hp =>
          cases hx
          refine ⟨by rintro _ ⟨⟩; exact h.listens since rfl, ?_⟩
          rintro _ _ _ ⟨⟩
          exact .inr (.inl hp)
  | suspended s slot since =>
      simp only [SharedRing.proceed] at hx
      split at hx
      · cases hx
        exact of_deaf rfl
      · contradiction
  | storing s slot =>
      cases hx
      exact of_deaf rfl
  | raising s =>
      cases hx
      exact of_deaf rfl

/-- Readers that leave the notifier alone keep the writer alert if the place it waits for is not
freed without a debt. -/
theorem keep (h : Alert o x) (hwriter : y.writer = x.writer) (hnotifier : y.notifier = x.notifier)
    (hplace : ∀ s, (x.ring.place s).pending ≠ 0 ∨ x.Owed s →
      (y.ring.place s).pending ≠ 0 ∨ y.Owed s) : Alert o y where
  listens since hs := by
    rw [hnotifier]
    exact h.listens since (hwriter ▸ hs)
  unmissed s slot since hs := by
    rw [hnotifier]
    exact (h.unmissed s slot since (hwriter ▸ hs)).imp_right (hplace s)

/-- A reader that was away has a debt afterwards if it has freed the place. -/
theorem lower (h : Alert o x) (hi : x.readers[i]? = some .away) (readers : UInt64)
    (hduty : duty.duty? = some t) : Alert o (x.lower i t readers duty) := by
  obtain ⟨hlt, -⟩ := List.getElem?_eq_some_iff.mp hi
  refine h.keep (y := x.lower i t readers duty) rfl rfl fun s hs => ?_
  have hplace := x.ring.place_lower t s readers
  by_cases hp : (x.ring.place t).pending = readers
  · rw [lower_of_last hp]
    by_cases hsame : t % x.ring.capacity = s % x.ring.capacity
    · refine .inr ⟨i, duty, t, List.getElem?_set_self hlt, hduty, ?_⟩
      simpa using hsame
    · rw [if_neg hsame] at hplace
      refine hs.imp (fun hpending => by rwa [hplace]) fun howed => ?_
      apply howed.keep (Ring.capacity_lower ..)
      intro j debt u hj hdebt
      have hij : i ≠ j := by
        rintro rfl
        rw [hi] at hj
        cases hj
        cases hdebt
      exact ⟨debt, (List.getElem?_set_ne hij).trans hj, hdebt⟩
  · rw [lower_of_not_last hp]
    by_cases hsame : t % x.ring.capacity = s % x.ring.capacity
    · left
      rw [if_pos hsame] at hplace
      rw [hplace]
      intro hzero
      apply hp
      rw [x.ring.place_congr hsame, UInt64.sub_eq_iff_eq_add.mp hzero, UInt64.zero_add]
    · rw [if_neg hsame] at hplace
      refine hs.imp (fun hpending => by rwa [hplace]) fun howed => ?_
      exact howed.keep (Ring.capacity_lower ..) fun _ debt _ hj hdebt => ⟨debt, hj, hdebt⟩

/-- An event that is dropped leaves all counts and all debts. -/
theorem clear (h : Alert o x) (hi : x.readers[i]? = some (.clearing t)) :
    Alert o { x with ring := x.ring.clear t, readers := x.readers.set i (.notifying t) } := by
  obtain ⟨hlt, -⟩ := List.getElem?_eq_some_iff.mp hi
  refine h.keep rfl rfl fun s hs => ?_
  refine hs.imp (fun hpending => ?_) fun howed => ?_
  · rw [Ring.clear, Ring.place_fill]
    split <;> exact hpending
  · apply howed.keep (Ring.capacity_clear ..)
    intro j debt u hj hdebt
    by_cases hij : i = j
    · subst hij
      rw [hi] at hj
      cases hj
      exact ⟨.notifying t, List.getElem?_set_self hlt, hdebt⟩
    · exact ⟨debt, (List.getElem?_set_ne hij).trans hj, hdebt⟩

theorem listens_notify (h : Alert o x) (hs : x.writer.since? = some since) : ∃ n uses,
    since = (o.listen n).1 ∧
      o.notify x.notifier = o.applyAll (o.listen n).2 (uses ++ [.notify]) := by
  obtain ⟨n, uses, hsince, hnotifier⟩ := h.listens since hs
  refine ⟨n, uses, hsince, ?_⟩
  rw [Notifier.applyAll_append, ← hnotifier]
  rfl

/-- A notification reaches the writer, whatever place it is for. -/
theorem reached (ho : o.Reaches) (h : Alert o x) (hs : x.writer.since? = some since) :
    o.isNotified (o.notify x.notifier) since := by
  obtain ⟨n, uses, rfl, hnotifier⟩ := h.listens_notify hs
  rw [hnotifier]
  exact (ho n _).mpr (by simp)

theorem notify (ho : o.Reaches) (h : Alert o x) (readers : List Reader) :
    Alert o { x with notifier := o.notify x.notifier, readers } where
  listens since hs := by
    obtain ⟨n, uses, hn⟩ := h.listens_notify hs
    exact ⟨n, _, hn⟩
  unmissed s slot since hs := .inl (h.reached ho (congrArg Writer.since? hs))

theorem act (ho : o.Reaches) (h : Alert o x) (a : Access) (hx : x.act o a = some y) :
    Alert o y := by
  cases a with
  | write s slot =>
      simp only [SharedRing.act] at hx
      split at hx
      · cases hx
        exact of_deaf rfl
      · contradiction
  | proceed => exact h.proceed hx
  | withdraw =>
      simp only [SharedRing.act] at hx
      split at hx
      · cases hx
        exact of_deaf rfl
      · contradiction
  | claim i t owns =>
      simp only [SharedRing.act] at hx
      split at hx
      · cases hx
        refine h.keep rfl rfl fun s hs => hs.imp (fun hpending => ?_) fun howed => ?_
        · rw [Ring.place_claim]
          split <;> exact hpending
        · exact howed.keep (Ring.capacity_claim ..) fun _ debt _ hj hdebt => ⟨debt, hj, hdebt⟩
      · contradiction
  | release i t =>
      simp only [SharedRing.act] at hx
      split at hx
      · next hi =>
          cases hx
          exact h.lower hi 1 rfl
      · contradiction
  | abandon i t readers =>
      simp only [SharedRing.act] at hx
      split at hx
      · next hi =>
          cases hx
          split
          · exact h
          · exact h.lower hi readers rfl
      · contradiction
  | finish i =>
      simp only [SharedRing.act] at hx
      split at hx
      · next t hi =>
          cases hx
          exact h.clear hi
      · cases hx
        exact h.notify ho _
      · contradiction

theorem actAll (ho : o.Reaches) (h : Alert o x) (accesses : List Access)
    (hx : x.actAll o accesses = some y) : Alert o y := by
  induction accesses generalizing x with
  | nil =>
      cases hx
      exact h
  | cons a accesses ih =>
      rw [actAll_cons] at hx
      obtain ⟨z, hz, hy⟩ := Option.bind_eq_some_iff.mp hx
      exact ih (h.act ho a hz) hy

end Alert

/-! ## The way out -/

/-- A reader that goes on pays its debt, and changes no count. -/
theorem actAll_finish (o : Notifier ν τ) (hi : x.readers[i]? = some duty)
    (hduty : duty.duty? = some t) : ∃ k ring,
    x.actAll o (List.replicate k (.finish i)) = some { x with
        ring, notifier := o.notify x.notifier, readers := x.readers.set i .away } ∧
      ring.readers = x.ring.readers ∧ ∀ s, (ring.place s).pending = (x.ring.place s).pending := by
  obtain ⟨hlt, -⟩ := List.getElem?_eq_some_iff.mp hi
  cases duty with
  | away => cases hduty
  | clearing u =>
      refine ⟨2, x.ring.clear u, ?_, rfl, fun s => ?_⟩
      · rw [List.replicate_succ, List.replicate_one, actAll_cons, act_finish_clearing hi,
          Option.bind_some, actAll_cons, act_finish_notifying (List.getElem?_set_self hlt),
          Option.bind_some, actAll_nil, List.set_set]
      · rw [Ring.clear, Ring.place_fill]
        split <;> rfl
  | notifying u =>
      refine ⟨1, x.ring, ?_, rfl, fun s => rfl⟩
      rw [List.replicate_one, actAll_cons, act_finish_notifying hi, Option.bind_some, actAll_nil]

/-- A writer that is notified looks again, and writes if the place is free. -/
theorem actAll_proceed (hw : x.writer = .suspended s slot since)
    (hn : o.isNotified x.notifier since) (hp : (x.ring.place s).pending = 0) :
    x.actAll o (List.replicate 5 .proceed) = some { x with
      ring := (x.ring.fill s slot).raise s
      notifier := (o.listen x.notifier).2
      writer := .away } := by
  simp [actAll, act, proceed, hw, hn, hp, List.replicate]

/-- A writer that waits at a free place without being notified waits for a reader that has freed
this very place and has still to notify. As soon as that reader goes on, the writer can write. -/
theorem notification_owed (ho : o.Reaches) {ring : Ring} {n : ν} {readers : Nat}
    {accesses : List Access} (h : (opening ring n readers).actAll o accesses = some x)
    (hw : x.writer = .suspended s slot since) (hn : ¬ o.isNotified x.notifier since)
    (hp : (x.ring.place s).pending = 0) :
    ∃ (i : Nat) (duty : Reader) (t : Nat), x.readers[i]? = some duty ∧ duty.duty? = some t ∧
      t % x.ring.capacity = s % x.ring.capacity ∧
      ∃ k y, x.actAll o (List.replicate k (.finish i) ++ List.replicate 5 .proceed) = some y ∧
        y.writer = .away ∧ y.ring.place s = ⟨slot, x.ring.readers⟩ := by
  have hopening : Alert o (opening ring n readers) := .of_deaf rfl
  have halert := hopening.actAll ho accesses h
  obtain ⟨i, duty, t, hi, hduty, ht⟩ := ((halert.unmissed s slot since hw).resolve_left hn)
    |>.resolve_left (not_not_intro hp)
  refine ⟨i, duty, t, hi, hduty, ht, ?_⟩
  obtain ⟨k, ring', hfinish, hreaders, hpending⟩ := actAll_finish o hi hduty
  have hfree : (ring'.place s).pending = 0 := (hpending s).trans hp
  have hnotified := halert.reached ho (congrArg Writer.since? hw)
  have hproceed := actAll_proceed (o := o) (x := { x with
    ring := ring', notifier := o.notify x.notifier, readers := x.readers.set i .away })
    hw hnotified hfree
  have hall := actAll_append o x (List.replicate k (.finish i)) (List.replicate 5 .proceed)
  rw [hfinish, Option.bind_some, hproceed] at hall
  have hwrite : ring'.write? s slot = some ((ring'.fill s slot).raise s) := by
    rw [Ring.write?_eq, if_pos hfree]
  refine ⟨k, _, hall, rfl, ?_⟩
  rw [Ring.place_write? hwrite, if_pos rfl, hreaders]

/-! ## A last release in between -/

namespace Rehearsal

def event (id : UInt64) : Slot :=
  .holding ⟨⟨0, ⟨0, 1⟩, true⟩, ⟨id.toNat, ⟨id⟩, "bills", .queue⟩, {}⟩ false

/-- The second write looks at the count of the only place just before the last reader lets go of
the first event. -/
def overtaken : List Access :=
  .write 0 (event 1) :: List.replicate 4 .proceed ++
    [.release 0 0, .write 1 (event 2), .proceed, .proceed, .release 1 0]

end Rehearsal

open Rehearsal in
/-- The second write waits at a free place, but the last reader will notify it. -/
theorem notification_owed_rehearsal : ∃ x,
    (opening (.new 1 2) 0 2).actAll .counting overtaken = some x ∧
      x.writer = .suspended 1 (event 2) 0 ∧ x.notifier = 0 ∧ (x.ring.place 1).pending = 0 ∧
      ∃ k y,
        x.actAll .counting (List.replicate k (.finish 1) ++ List.replicate 5 .proceed) = some y ∧
          y.writer = .away ∧ y.ring.place 1 = ⟨event 2, 2⟩ := by
  obtain ⟨x, hx, hw, hn, hp, hreaders, hcount⟩ : ∃ x,
      (opening (.new 1 2) 0 2).actAll .counting overtaken = some x ∧
        x.writer = .suspended 1 (event 2) 0 ∧ x.notifier = 0 ∧ (x.ring.place 1).pending = 0 ∧
        x.readers = [.away, .notifying 0] ∧ x.ring.readers = 2 :=
    ⟨_, rfl, rfl, rfl, rfl, rfl, rfl⟩
  refine ⟨x, hx, hw, hn, hp, ?_⟩
  obtain ⟨i, duty, t, hi, hduty, -, hout⟩ :=
    notification_owed Notifier.reaches_counting hx hw (by rw [hn]; decide) hp
  -- the other reader is away
  obtain rfl : i = 1 := by
    rw [hreaders] at hi
    match i with
    | 0 => cases hi; cases hduty
    | 1 => rfl
    | i + 2 => cases hi
  rwa [hcount] at hout

end SharedRing

end ShardedDelivery
