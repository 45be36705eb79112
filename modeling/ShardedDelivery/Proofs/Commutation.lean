import ShardedDelivery.Proofs.Rollback

/-! # Rollbacks in any order

Deliveries of one message, and deliveries to one subscription, may be taken back at the same time.
A rollback is three changes of the books, and changes of different rollbacks may come in any order:
what the books hold in the end is told by which rollbacks there were. -/

namespace ShardedDelivery

/-- What threads do, one step of any of them at a time, until all are done. -/
inductive Interleaving {α : Type} : List (List α) → List α → Prop where
  | done {threads : List (List α)} (h : ∀ steps ∈ threads, steps = []) : Interleaving threads []
  | step (before after : List (List α)) {x : α} {rest xs : List α}
      (h : Interleaving (before ++ rest :: after) xs) :
      Interleaving (before ++ (x :: rest) :: after) (x :: xs)

namespace Interleaving

variable {α : Type} {threads : List (List α)} {xs : List α}

theorem perm (h : Interleaving threads xs) : xs.Perm threads.flatten := by
  induction h with
  | done h => rw [List.flatten_eq_nil_iff.mpr h]
  | step before after _ ih =>
      refine (ih.cons _).trans ?_
      simp only [List.flatten_append, List.flatten_cons, List.cons_append]
      exact List.perm_middle.symm

/-- Threads may go one after another. -/
theorem flatten (threads : List (List α)) : Interleaving threads threads.flatten := by
  suffices h : ∀ before, (∀ steps ∈ before, steps = []) →
      Interleaving (before ++ threads) threads.flatten from h [] (by simp)
  induction threads with
  | nil => exact fun before hbefore => .done (by simpa using hbefore)
  | cons steps threads ih =>
      intro before hbefore
      rw [List.flatten_cons]
      induction steps with
      | nil =>
          have h := ih (before ++ [[]]) (by simpa [or_imp, forall_and] using hbefore)
          rwa [List.append_assoc, List.singleton_append] at h
      | cons x steps ihsteps => exact .step before threads ihsteps

end Interleaving

/-- What is done to the books when these messages are taken back from these subscriptions. -/
def Edit.rollbacks (calls : List (Message × Subscription)) : List (List Edit) :=
  calls.map fun call => rollback call.1 call.2

namespace Books

/-- Nobody who looks into the books can tell them apart. -/
structure Same (b b' : Books) : Prop extends SameFlight b b' where
  size : ∀ s, (b'.sent s).size = (b.sent s).size
  stale : ∀ m, b'.isStale m = b.isStale m
  disposable : ∀ m, b'.isDisposable m = b.isDisposable m
  active : ∀ s, b'.isActive s = b.isActive s

/-- How many of these rollbacks are of the message on the channel. -/
def backs (calls : List (Message × Subscription)) (m : Message) (c : ChannelId) : Nat :=
  calls.countP fun call => call.1 = m ∧ call.2.channel = c

/-- What the books hold once these messages have been taken back from these subscriptions. -/
structure TakenBack (b : Books) (calls : List (Message × Subscription)) (b' : Books) : Prop where
  /-- Every rollback of a message on a channel is counted there, by a counter that wraps. -/
  failures : ∀ m c, b'.failures m c = b.failures m c + UInt32.ofNat (backs calls m c)
  /-- Below its limit the counter is exact. -/
  exact : ∀ m c, (b.failures m c).toNat + backs calls m c < 2 ^ 32 →
    (b'.failures m c).toNat = (b.failures m c).toNat + backs calls m c
  /-- A message stays scheduled for the channels that it was not taken back on. -/
  scheduled : ∀ m c, c ∈ b'.scheduled m ↔
    c ∈ b.scheduled m ∧ ¬ ∃ call ∈ calls, call.1 = m ∧ call.2.channel = c
  /-- An id stays in flight on a subscription that no message of that id was taken back from. -/
  sent : ∀ s id, id ∈ b'.sent s ↔
    id ∈ b.sent s ∧ ¬ ∃ call ∈ calls, call.2 = s ∧ call.1.id = id
  stale : ∀ m, b'.isStale m = b.isStale m
  disposable : ∀ m, b'.isDisposable m = b.isDisposable m
  active : ∀ s, b'.isActive s = b.isActive s

/-! ## What is told by the changes alone -/

section Views

variable {b : Books} {edits : List Edit}

/-- Failures are told by how often each was counted. -/
theorem failures_applyAll (b : Books) (edits : List Edit) (m : Message) (c : ChannelId) :
    (b.applyAll edits).failures m c =
      b.failures m c + UInt32.ofNat (edits.count (.countFailure m c)) := by
  induction edits generalizing b with
  | nil => simp [applyAll]
  | cons e edits ih =>
      rw [applyAll, List.foldl_cons, ← applyAll, ih, failures_apply, List.count_cons]
      by_cases he : e = .countFailure m c
      · simp only [he, if_true, beq_self_eq_true]
        rw [Nat.add_comm, UInt32.ofNat_add, UInt32.add_assoc]
        rfl
      · simp [he]

/-- Where nothing is scheduled, it is told by what was taken off the schedule. -/
theorem mem_scheduled_applyAll {m : Message} {c : ChannelId} (h : .schedule m c ∉ edits) :
    c ∈ (b.applyAll edits).scheduled m ↔ c ∈ b.scheduled m ∧ .unschedule m c ∉ edits := by
  induction edits generalizing b with
  | nil => simp [applyAll]
  | cons e edits ih =>
      rw [List.mem_cons, not_or] at h
      obtain ⟨he, hedits⟩ := h
      rw [applyAll, List.foldl_cons, ← applyAll, ih hedits, mem_scheduled_apply, List.mem_cons]
      tauto

theorem mem_sent_applyAll {s : Subscription} {id : MessageId} (h : .track s id ∉ edits) :
    id ∈ (b.applyAll edits).sent s ↔ id ∈ b.sent s ∧ .untrack s id ∉ edits := by
  induction edits generalizing b with
  | nil => simp [applyAll]
  | cons e edits ih =>
      rw [List.mem_cons, not_or] at h
      obtain ⟨he, hedits⟩ := h
      rw [applyAll, List.foldl_cons, ← applyAll, ih hedits, mem_sent_apply, List.mem_cons]
      tauto

end Views

/-! ## What is told by the rollbacks -/

section Rollbacks

variable {b b' b'' : Books} {calls calls' : List (Message × Subscription)} {edits : List Edit}

theorem mem_rollbacks {e : Edit} :
    e ∈ (Edit.rollbacks calls).flatten ↔ ∃ call ∈ calls, e ∈ Edit.rollback call.1 call.2 := by
  simp [Edit.rollbacks]

theorem count_countFailure (calls : List (Message × Subscription)) (m : Message) (c : ChannelId) :
    (Edit.rollbacks calls).flatten.count (.countFailure m c) = backs calls m c := by
  induction calls with
  | nil => rfl
  | cons call calls ih =>
      rw [backs, List.countP_cons, ← backs, ← ih, Nat.add_comm]
      simp [Edit.rollbacks, Edit.rollback, List.count_cons, Nat.add_comm]

/-- The changes of rollbacks, in any order, take the messages back. -/
theorem takenBack_of_perm (h : edits.Perm (Edit.rollbacks calls).flatten) :
    b.TakenBack calls (b.applyAll edits) := by
  have hmem (e : Edit) : e ∈ edits ↔ ∃ call ∈ calls, e ∈ Edit.rollback call.1 call.2 :=
    h.mem_iff.trans mem_rollbacks
  have hflags : ∀ e ∈ edits, e.setsFlag = false := by
    intro e he
    obtain ⟨call, -, he⟩ := (hmem e).mp he
    exact setsFlag_of_mem_rollback he
  obtain ⟨hstale, hdisposable, hactive⟩ := flags_applyAll hflags b
  have hfailures (m : Message) (c : ChannelId) : (b.applyAll edits).failures m c =
      b.failures m c + UInt32.ofNat (backs calls m c) := by
    rw [failures_applyAll, h.count_eq, count_countFailure]
  refine ⟨hfailures, ?_, ?_, ?_, hstale, hdisposable, hactive⟩
  · intro m c hbound
    rw [hfailures, UInt32.toNat_add, UInt32.toNat_ofNat', Nat.add_mod_mod,
      Nat.mod_eq_of_lt hbound]
  · intro m c
    have hschedule : Edit.schedule m c ∉ edits := by simp [hmem, Edit.rollback]
    rw [mem_scheduled_applyAll hschedule, hmem]
    simp [Edit.rollback, eq_comm]
  · intro s id
    have htrack : Edit.track s id ∉ edits := by simp [hmem, Edit.rollback]
    rw [mem_sent_applyAll htrack, hmem]
    simp [Edit.rollback, eq_comm]

theorem SameFlight.size_sent (h : b.SameFlight b') (s : Subscription) :
    (b'.sent s).size = (b.sent s).size := by
  have hperm : (b'.sent s).items.Perm (b.sent s).items :=
    (List.perm_ext_iff_of_nodup (b'.sent s).nodup (b.sent s).nodup).mpr (h.sent s)
  exact hperm.length_eq

/-- What is left is told by what was taken back. -/
theorem TakenBack.same (h : b.TakenBack calls b') (h' : b.TakenBack calls b'') : b'.Same b'' := by
  have hflight : b'.SameFlight b'' := {
    scheduled := fun m c => (h'.scheduled m c).trans (h.scheduled m c).symm
    failures := fun m c => (h'.failures m c).trans (h.failures m c).symm
    sent := fun s id => (h'.sent s id).trans (h.sent s id).symm }
  exact ⟨hflight, hflight.size_sent, fun m => (h'.stale m).trans (h.stale m).symm,
    fun m => (h'.disposable m).trans (h.disposable m).symm,
    fun s => (h'.active s).trans (h.active s).symm⟩

theorem perm_rollbacks (h : calls'.Perm calls) :
    (Edit.rollbacks calls').flatten.Perm (Edit.rollbacks calls).flatten :=
  (h.map _).flatten

/-- In whatever order messages are taken back from subscriptions, and however the changes of the
rollbacks come in between each other, it ends with the same books: those that are told by which
rollbacks there were. -/
theorem rollbacks_commute (b : Books) {calls order : List (Message × Subscription)}
    {edits : List Edit} (horder : order.Perm calls)
    (hedits : Interleaving (Edit.rollbacks calls) edits) :
    b.TakenBack calls (b.applyAll edits) ∧
      (∀ edits', Interleaving (Edit.rollbacks order) edits' →
        (b.applyAll edits).Same (b.applyAll edits')) ∧
      (b.applyAll edits).Same (b.applyAll (Edit.rollbacks order).flatten) := by
  have h : b.TakenBack calls (b.applyAll edits) := takenBack_of_perm hedits.perm
  have hsame (edits' : List Edit) (hedits' : Interleaving (Edit.rollbacks order) edits') :
      (b.applyAll edits).Same (b.applyAll edits') :=
    h.same (takenBack_of_perm (hedits'.perm.trans (perm_rollbacks horder)))
  exact ⟨h, hsame, hsame _ (.flatten _)⟩

end Rollbacks

namespace Rehearsal

def message : Message := ⟨0, ⟨7⟩, "orders", .queue⟩

def subscription (n : Nat) : Subscription := ⟨n, ⟨0, UInt64.ofNat n⟩, false⟩

/-- One message on two channels, and twice on one of them. -/
def calls : List (Message × Subscription) :=
  [(message, subscription 1), (message, subscription 2), (message, subscription 1)]

/-- All failures are counted first, and the trackers come last. -/
def edits : List Edit := [
  .countFailure message ⟨0, 1⟩, .countFailure message ⟨0, 2⟩, .countFailure message ⟨0, 1⟩,
  .unschedule message ⟨0, 2⟩, .unschedule message ⟨0, 1⟩, .unschedule message ⟨0, 1⟩,
  .untrack (subscription 1) ⟨7⟩, .untrack (subscription 1) ⟨7⟩, .untrack (subscription 2) ⟨7⟩]

theorem interleaving : Interleaving (Edit.rollbacks calls) edits :=
  .step [] _ <| .step [_] _ <| .step [_, _] _ <| .step [_] _ <| .step [] _ <| .step [_, _] _ <|
    .step [] _ <| .step [_, _] _ <| .step [_] _ <| .done (by simp)

def books : Books := ({} : Books).applyAll <|
  Edit.inFlight message (subscription 1) ++ Edit.inFlight message (subscription 2)

end Rehearsal

/-- The channel that the message is taken back on twice has two failures, in whatever order. -/
theorem rollbacks_commute_rehearsal :
    Interleaving (Edit.rollbacks Rehearsal.calls) Rehearsal.edits ∧
      ((Rehearsal.books.applyAll Rehearsal.edits).failures Rehearsal.message ⟨0, 1⟩).toNat = 2 ∧
      (Rehearsal.books.applyAll Rehearsal.edits).Same
        (Rehearsal.books.applyAll (Edit.rollbacks Rehearsal.calls.reverse).flatten) := by
  obtain ⟨h, -, hsame⟩ := rollbacks_commute Rehearsal.books (List.reverse_perm Rehearsal.calls)
    Rehearsal.interleaving
  exact ⟨Rehearsal.interleaving, h.exact Rehearsal.message ⟨0, 1⟩ (by decide), hsame⟩

end Books

end ShardedDelivery
