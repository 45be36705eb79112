import ShardedDelivery.Proofs.Pool.Staff
import ShardedDelivery.Proofs.Pool.Trail

/-! # Positions

How far every handler is at every point follows from its stage: the points of a sequence are
passed in order, one sequence after another, and its inbox holds what it has heard of and not yet
received. -/

namespace ShardedDelivery

/-- How far a handler is at every point, seen from its stage. -/
def Stage.At : Stage → (Phase → Nat) → Prop
  | .idle, c => c .claimed = c .received ∧ c .released = c .received ∧ c .begun = c .received ∧
      c .done = c .received
  | .received s, c => c .received = s + 1 ∧ c .claimed = s ∧ c .released = s ∧ c .begun = s ∧
      c .done = s
  | .claimed s _, c => c .received = s + 1 ∧ c .claimed = s + 1 ∧ c .released = s ∧
      c .begun = s ∧ c .done = s
  | .released s _, c => c .received = s + 1 ∧ c .claimed = s + 1 ∧ c .released = s + 1 ∧
      c .begun = s ∧ c .done = s
  | .dispatching s _ _, c => c .received = s + 1 ∧ c .claimed = s + 1 ∧ c .released = s + 1 ∧
      c .begun = s + 1 ∧ c .done = s
  | .waiting s _ _ _ _, c => c .received = s + 1 ∧ c .claimed = s + 1 ∧ c .released = s + 1 ∧
      c .begun = s + 1 ∧ c .done = s
  | .recorded s _ _, c => c .received = s + 1 ∧ c .claimed = s + 1 ∧ c .released = s + 1 ∧
      c .begun = s + 1 ∧ c .done = s
  | .ended, c => c .done ≤ c .begun ∧ c .begun ≤ c .released ∧ c .released ≤ c .claimed ∧
      c .claimed ≤ c .received ∧ c .received ≤ c .done + 1

namespace Stage

theorem At.chain {stage : Stage} {c : Phase → Nat} (h : stage.At c) :
    c .done ≤ c .begun ∧ c .begun ≤ c .released ∧ c .released ≤ c .claimed ∧
      c .claimed ≤ c .received ∧ c .received ≤ c .done + 1 := by
  cases stage <;> simp only [At] at h <;> omega

theorem at_of_busy {stage : Stage} {c : Phase → Nat} {s : Nat} {d : Delivery}
    (hb : stage.busy? = some (s, d)) :
    stage.At c ↔ c .received = s + 1 ∧ c .claimed = s + 1 ∧ c .released = s + 1 ∧
      c .begun = s + 1 ∧ c .done = s := by
  cases stage <;> simp only [busy?, Option.some.injEq, Prod.mk.injEq, reduceCtorEq] at hb <;>
    simp only [At, hb.1]

end Stage

namespace Trail

@[simp] theorem passed_calls (i j s : Nat) (d : Delivery) (calls : List Call) (φ : Phase) :
    passed (calls.map (.called i s d)) j φ = [] := by
  simp [passed]

@[simp] theorem passed_recording (i j : Nat) (stage : Stage) (φ : Phase) :
    passed (stage.recording i) j φ = [] := by
  cases stage <;> rfl

@[simp] theorem reached_calls (i j s : Nat) (d : Delivery) (calls : List Call) (φ : Phase) :
    reached (calls.map (.called i s d)) j φ = 0 := by
  simp [reached]

@[simp] theorem reached_recording (i j : Nat) (stage : Stage) (φ : Phase) :
    reached (stage.recording i) j φ = 0 := by
  simp [reached]

@[simp] theorem events_calls (i s : Nat) (d : Delivery) (calls : List Call) :
    events (calls.map (.called i s d)) = [] := by
  simp [events, Deed.event?]

@[simp] theorem events_recording (i : Nat) (stage : Stage) : events (stage.recording i) = [] := by
  cases stage <;> rfl

end Trail

namespace Worker.Turn

variable {i : Nat} {closed : Bool} {w w' : Worker} {ring ring' : Ring} {deeds : List Deed}
  {report : Option Report} {past : Trail}

theorem events_eq (h : w.Turn i closed ring deeds w' ring' report) : Trail.events deeds = [] := by
  cases h with
  | work s d handler stage calls hs hn hb hh hc hr hk => simp
  | _ => simp [Deed.event?]

/-- Nobody else gets anywhere by a turn. -/
theorem reached_of_ne (h : w.Turn i closed ring deeds w' ring' report) {j : Nat} (hj : j ≠ i)
    (φ : Phase) : Trail.reached deeds j φ = 0 := by
  cases h <;> simp [Deed.passes, hj.symm]

/-- Nobody hears of anything by a turn. -/
theorem reached_heard (h : w.Turn i closed ring deeds w' ring' report) (j : Nat) :
    Trail.reached deeds j .heard = 0 := by
  cases h <;> simp [Deed.passes]

/-- What a handler receives is the next number for it. -/
theorem receive_eq {s : Nat} {rest : List Nat} {c : Phase → Nat} (hi : w.inbox = s :: rest)
    (hinbox : w.inbox = List.range' (c .received) (c .heard - c .received)) :
    s = c .received ∧ c .received < c .heard ∧
      rest = List.range' (c .received + 1) (c .heard - c .received - 1) := by
  rw [hi, eq_comm, List.range'_eq_cons_iff] at hinbox
  obtain ⟨rfl, hpos, hrest⟩ := hinbox
  exact ⟨rfl, by omega, hrest⟩

end Worker.Turn

/-- Where a handler stands: its stage and its inbox say how far it is at every point. -/
structure Worker.Stands (w : Worker) (c : Phase → Nat) : Prop where
  stage : w.stage.At c
  inbox : w.stage ≠ .ended → w.inbox = List.range' (c .received) (c .heard - c .received)
  received_le : c .received ≤ c .heard

namespace Worker.Turn

variable {i : Nat} {closed : Bool} {w w' : Worker} {ring ring' : Ring} {deeds : List Deed}
  {report : Option Report} {past : Trail}

/-- A turn takes a handler from one position to the next. -/
theorem stands_next (h : w.Turn i closed ring deeds w' ring' report)
    (hat : w.Stands (past.reached i)) : w'.Stands (Trail.reached (past ++ deeds) i) := by
  obtain ⟨hstage, hinbox, hle⟩ := hat
  cases h with
  | receive s rest hs hi =>
      obtain ⟨rfl, hlt, hrest⟩ := receive_eq hi (hinbox (by simp [hs]))
      simp only [hs, Stage.At] at hstage
      refine ⟨by simp [Stage.At, Deed.passes, hstage], fun _ => ?_, ?_⟩
      · simp [hrest, Deed.passes, Nat.sub_sub]
      · simpa [Deed.passes, Nat.succ_le_iff] using hlt
  | leave hs hi hc =>
      simp only [hs, Stage.At] at hstage
      refine ⟨?_, fun hne => absurd rfl hne, by simpa using hle⟩
      simp only [stop, Stage.At, List.append_nil]
      omega
  | claim s hs =>
      have hin := hinbox (by simp [hs])
      simp only [hs, Stage.At] at hstage
      exact ⟨by simp [Stage.At, Deed.passes, hstage], fun _ => by simpa [Deed.passes] using hin,
        by simpa [Deed.passes] using hle⟩
  | release s slot hs =>
      have hin := hinbox (by simp [hs])
      simp only [hs, Stage.At] at hstage
      exact ⟨by simp [Stage.At, Deed.passes, hstage], fun _ => by simpa [Deed.passes] using hin,
        by simpa [Deed.passes] using hle⟩
  | pass s slot handler hs hc hh =>
      have hin := hinbox (by simp [hs])
      simp only [hs, Stage.At] at hstage
      exact ⟨by simp [Stage.At, Deed.passes, hstage], fun _ => by simpa [Deed.passes] using hin,
        by simpa [Deed.passes] using hle⟩
  | begin s slot d handler plan hs hc hh hp =>
      have hin := hinbox (by simp [hs])
      simp only [hs, Stage.At] at hstage
      exact ⟨by simp [Stage.At, Deed.passes, hstage], fun _ => by simpa [Deed.passes] using hin,
        by simpa [Deed.passes] using hle⟩
  | work s d handler stage calls hs hn hb hh hc hr hk =>
      have hin := hinbox (fun he => by simp [he, Stage.busy?] at hs)
      rw [Stage.at_of_busy hs] at hstage
      exact ⟨by rw [Stage.at_of_busy hb]; simpa using hstage, fun _ => by simpa using hin,
        by simpa using hle⟩
  | report s d report hs =>
      have hin := hinbox (by simp [hs])
      simp only [hs, Stage.At] at hstage
      exact ⟨by simp [Stage.At, Deed.passes, hstage], fun _ => by simpa [Deed.passes] using hin,
        by simpa [Deed.passes] using hle⟩

/-- A handler passes every point with the next number. -/
theorem passed_eq (h : w.Turn i closed ring deeds w' ring' report)
    (hat : w.Stands (past.reached i)) (j : Nat) (φ : Phase) :
    Trail.passed deeds j φ = [] ∨ Trail.passed deeds j φ = [past.reached j φ] := by
  obtain ⟨hstage, hinbox, -⟩ := hat
  by_cases hj : j = i
  · subst hj
    cases h with
    | receive s rest hs hi =>
        obtain ⟨rfl, -, -⟩ := receive_eq hi (hinbox (by simp [hs]))
        cases φ <;> simp [Trail.passed_cons]
    | leave hs hi hc => exact Or.inl rfl
    | claim s hs =>
        simp only [hs, Stage.At] at hstage
        cases φ <;> simp [Trail.passed_cons, hstage]
    | release s slot hs =>
        simp only [hs, Stage.At] at hstage
        cases φ <;> simp [Trail.passed_cons, hstage]
    | pass s slot handler hs hc hh =>
        simp only [hs, Stage.At] at hstage
        cases φ <;> simp [Trail.passed_cons, hstage]
    | begin s slot d handler plan hs hc hh hp =>
        simp only [hs, Stage.At] at hstage
        cases φ <;> simp [Trail.passed_cons, hstage]
    | work s d handler stage calls hs hn hb hh hc hr hk => simp
    | report s d report hs =>
        simp only [hs, Stage.At] at hstage
        cases φ <;> simp [Trail.passed_cons, hstage]
  · exact Or.inl (List.eq_nil_of_length_eq_zero (h.reached_of_ne hj φ))

end Worker.Turn

namespace Worker.Stands

variable {w : Worker} {c c' : Phase → Nat}

/-- A handler hears of the next number. -/
theorem hear (h : w.Stands c) (hs : w.stage ≠ .ended) (hheard : c' .heard = c .heard + 1)
    (hsame : ∀ φ, φ ≠ .heard → c' φ = c φ) : (w.hear (c .heard)).Stands c' := by
  obtain ⟨hstage, hinbox, hle⟩ := h
  have hreceived := hsame .received (by simp)
  refine ⟨?_, fun hne => ?_, by omega⟩
  · have hc := hsame .claimed (by simp)
    have hr := hsame .released (by simp)
    have hb := hsame .begun (by simp)
    have hd := hsame .done (by simp)
    cases hw : w.stage <;> simp_all [Stage.At, Worker.hear]
  · simp only [Worker.hear, hinbox hs, hreceived, hheard]
    rw [Nat.sub_add_comm hle, List.range'_concat]
    congr
    omega

theorem stop (h : w.Stands c) : w.stop.Stands c :=
  ⟨h.stage.chain, fun hne => absurd rfl hne, h.received_le⟩

end Worker.Stands

end ShardedDelivery
