import ShardedDelivery.Proofs.Plan.Bare
import ShardedDelivery.Proofs.Seclusion

/-! # Contents

A handler passes contents on and looks at none. With callees that do the same whatever the
contents, two handlers that are shown the same events with other contents do the same, and each
sends what it was shown. -/

namespace ShardedDelivery

open Function (FactorsThrough)

variable {σ τ : Type} {e : Environment σ} {shows : σ → τ}

/-! ## Callees -/

namespace Environment.Blind

variable (h : e.Blind shows) {meanwhile : Delivery → Nat → Site σ → Option (Site σ)}
  (hmeanwhile : ∀ mark, FactorsThrough
    (fun p : Delivery × Site σ => (meanwhile p.1 mark p.2).map (Site.bare shows))
    (Prod.map Delivery.bare (Site.bare shows)))

include h hmeanwhile

theorem resume_meanwhile (mark : Nat) : FactorsThrough
    (fun p : Delivery × Site σ =>
      ((meanwhile p.1 mark p.2).bind (e.resume p.1 mark)).map (Site.shown shows))
    (Prod.map Delivery.bare (Site.bare shows)) := by
  rintro ⟨d, s⟩ ⟨d', s'⟩ hpair
  have hsites := hmeanwhile mark hpair
  simp only [Prod.map, Prod.mk.injEq] at hpair
  rcases hm : meanwhile d mark s with _ | site <;>
    rcases hm' : meanwhile d' mark s' with _ | site' <;>
    simp only [hm, hm', Option.map_some, Option.map_none, reduceCtorEq, Option.some.injEq]
      at hsites
  · simp only [hm, hm', Option.bind_none]
  · simp only [hm, hm', Option.bind_some]
    exact h.resume mark (a := (d, site)) (b := (d', site')) (Prod.ext hpair.1 hsites)

/-- Callees that do the same whatever the contents do so for someone who waits for them, if what
others do meanwhile does not depend on contents either. -/
theorem patient : (e.patient meanwhile).Blind shows where
  send := by
    rintro ⟨d, s⟩ ⟨d', s'⟩ hpair
    have hsend := h.send hpair
    simp only [Prod.map, Prod.mk.injEq] at hpair
    simp only [Environment.patient]
    rcases ha : e.send d s with ⟨result | mark, site⟩ <;>
      rcases hb : e.send d' s' with ⟨result' | mark', site'⟩ <;>
      simp only [ha, hb, Site.shown, Prod.map, id_eq, Prod.mk.injEq, reduceCtorEq, false_and,
        Attempt.ended.injEq, Attempt.waiting.injEq] at hsend ⊢
    · exact hsend
    · obtain ⟨rfl, hsite⟩ := hsend
      have hlate := h.resume_meanwhile hmeanwhile mark (a := (d, site)) (b := (d', site'))
        (Prod.ext hpair.1 hsite)
      rcases hl : (meanwhile d mark site).bind (e.resume d mark) with _ | ⟨result, left⟩ <;>
        rcases hl' : (meanwhile d' mark site').bind (e.resume d' mark) with _ | ⟨result', left'⟩ <;>
        simp only [hl, hl', Site.shown, Option.map_some, Option.map_none, reduceCtorEq, Prod.map,
          id_eq, Option.some.injEq, Prod.mk.injEq] at hlate
      · exact ⟨rfl, hsite⟩
      · obtain ⟨rfl, hleft⟩ := hlate
        exact ⟨rfl, hleft⟩
  resume := h.resume
  requeue := h.requeue
  moveToDeadLetters := h.moveToDeadLetters
  trace := h.trace
  count := h.count

end Environment.Blind

/-- Nothing scripted looks at contents. -/
theorem Scripted.blind (listening : Bool) : (Scripted.environment listening).Blind id where
  send := by
    rintro ⟨⟨subscription, m, content⟩, s⟩ ⟨⟨subscription', m', content'⟩, s'⟩ hpair
    simp only [Prod.map, Delivery.bare, Prod.mk.injEq, Delivery.mk.injEq] at hpair
    obtain ⟨⟨rfl, rfl, -⟩, rfl : s = s'⟩ := hpair
    rfl
  resume := by
    rintro mark ⟨⟨subscription, m, content⟩, s⟩ ⟨⟨subscription', m', content'⟩, s'⟩ hpair
    simp only [Prod.map, Delivery.bare, Prod.mk.injEq, Delivery.mk.injEq] at hpair
    obtain ⟨⟨rfl, rfl, -⟩, rfl : s = s'⟩ := hpair
    rfl
  requeue := by
    rintro m s s' (rfl : s = s')
    rfl
  moveToDeadLetters := by
    rintro m destination queue s s' (rfl : s = s')
    rfl
  trace := by
    rintro kind m s s' (rfl : s = s')
    rfl
  count := by
    rintro metric s s' (rfl : s = s')
    rfl

/-! ## Lines -/

namespace Entry

/-- Without contents, the same is read in the log. -/
theorem line?_bare (entry : Entry) : entry.bare.line? = entry.line? := by
  rcases entry with ⟨_ | _ | _ | _ | _, found⟩ | _ | _ <;> rfl

end Entry

namespace Scene

/-- The lines of the log, if traces go to the log. -/
def lines (s : Scene σ) : List Line := s.journal.filterMap Entry.line?

@[simp] theorem lines_bare (s : Scene σ) : (s.bare shows).lines = s.lines := by
  simp only [lines, bare, List.filterMap_map]
  congr 1
  funext entry
  exact entry.line?_bare

@[simp] theorem calls_bare (s : Scene σ) : (s.bare shows).calls = s.calls.map Call.bare := by
  simp only [calls, bare, List.filterMap_map, List.map_filterMap]
  congr 1
  funext entry
  cases entry <;> rfl

end Scene

/-- Two scenes that differ in nothing but contents. -/
structure Scene.Matches (shows : σ → τ) (s s' : Scene σ) : Prop where
  books : s.books = s'.books
  /-- What the callees show apart from contents, such as the lists of an engine. -/
  outside : shows s.outside = shows s'.outside
  lines : s.lines = s'.lines
  /-- The calls differ at most in the contents of sends. -/
  calls : s.calls.map Call.bare = s'.calls.map Call.bare
  journal : s.journal.map Entry.bare = s'.journal.map Entry.bare

theorem Scene.matches_of_bare {s s' : Scene σ} (h : s.bare shows = s'.bare shows) :
    s.Matches shows s' where
  books := congrArg (·.books) h
  outside := congrArg (·.outside) h
  lines := by simpa using congrArg Scene.lines h
  calls := by simpa using congrArg Scene.calls h
  journal := congrArg Scene.journal h

/-! ## Handlers -/

/-- An event without its content. -/
def Event.bare (x : Event) : Event := { x with slot := x.slot.bare }

/-- A turn without contents. -/
def Turn.bare (shows : σ → τ) (turn : Turn σ) : Turn τ where
  handler := turn.handler
  slot := turn.slot.bare
  scene := turn.scene.bare shows
  result := turn.result

/-- Two turns that differ in nothing but contents. -/
structure Turn.Matches (shows : σ → τ) (turn turn' : Turn σ) : Prop where
  /-- The handler, with its counters. -/
  handler : turn.handler = turn'.handler
  result : turn.result = turn'.result
  slot : turn.slot.bare = turn'.slot.bare
  scene : turn.scene.Matches shows turn'.scene

theorem Turn.matches_of_bare {turn turn' : Turn σ} (h : turn.bare shows = turn'.bare shows) :
    turn.Matches shows turn' where
  handler := (congrArg Turn.handler h :)
  result := (congrArg Turn.result h :)
  slot := congrArg Turn.slot h
  scene := Scene.matches_of_bare (congrArg Turn.scene h)

namespace Handler

variable (h : Handler)

theorem owns_bare (slot : Slot) : h.owns slot.bare = h.owns slot := by
  simp only [owns, Slot.bare, Option.any_map]
  rfl

theorem claim?_bare (slot : Slot) : h.claim? slot.bare = (h.claim? slot).map Delivery.bare := by
  simp only [claim?, Slot.bare, Option.filter_map]
  rfl

theorem see_bare (sequence : Nat) (last : Bool) (s : Scene σ) :
    h.see sequence last (s.bare shows) = (h.see sequence last s).map id (Scene.bare shows) := by
  cases last with
  | false => rfl
  | true => simp only [see, if_true, Prod.map, s.log_bare, id_eq]

theorem contain_bare (d : Delivery) (crash : Crash) (s : Scene σ) :
    contain d.bare crash (s.bare shows) = (contain d crash s).bare shows :=
  (s.log_bare _).symm

theorem course_bare (he : e.Blind shows) (d : Delivery) (failed : Bool) (sequence : Nat)
    (last : Bool) (s : Scene σ) :
    h.course (e.bare shows) d.bare failed sequence last (s.bare shows) =
      (h.course e d failed sequence last s).map Plan.Ending.bare
        (Prod.map id (Scene.bare shows)) := by
  simp only [course, see_bare, Prod.map_snd, ← Plan.bare_dispatch, Plan.run_bare he]

theorem conclude_bare (d : Delivery) (course : Plan.Ending × Tally × Scene σ) :
    h.conclude d.bare (course.map Plan.Ending.bare (Prod.map id (Scene.bare shows))) =
      (h.conclude d course).bare shows := by
  rcases course with ⟨outcome | crash | ⟨c, mark, rest⟩, t, s⟩
  · rfl
  · simp only [conclude, Prod.map, Plan.Ending.bare, contain_bare, id_eq]
    rfl
  · rfl

/-- A turn with a bare event is the turn with the event, without contents. -/
theorem attend_bare (he : e.Blind shows) (x : Event) (s : Scene σ) :
    h.attend (e.bare shows) x.bare (s.bare shows) = (h.attend e x s).bare shows := by
  have hclaims : h.claim? x.bare.slot = (h.claim? x.slot).map Delivery.bare :=
    h.claim?_bare x.slot
  simp only [attend]
  cases hclaim : h.claim? x.slot with
  | none =>
      rw [hclaim] at hclaims
      rw [handle_of_foreign hclaim, handle_of_foreign hclaims]
      simp only [Turn.bare, Event.bare, see_bare, Prod.map_snd]
  | some d =>
      rw [hclaim] at hclaims
      rw [handle_of_claim hclaim, handle_of_claim hclaims, ← conclude_bare, ← course_bare _ he]
      rfl

/-- Bare events leave a handler as the events do. -/
theorem attendAll_bare (he : e.Blind shows) (s : Scene σ) (events : List Event) :
    h.attendAll (e.bare shows) (s.bare shows) (events.map Event.bare) =
      (h.attendAll e s events).map id (Scene.bare shows) := by
  induction events generalizing h s with
  | nil => rfl
  | cons x events ih =>
      simp only [List.map_cons, attendAll, attend_bare _ he]
      exact ih _ _

/-- Shown the same events with other contents, a handler takes the same turns. -/
theorem attendAfter_matches (he : e.Blind shows) {s s' : Scene σ}
    (hs : s.bare shows = s'.bare shows) {before before' : List Event}
    (hbefore : before.map Event.bare = before'.map Event.bare) {x x' : Event}
    (hx : x.bare = x'.bare) :
    (h.attendAfter e s before x).Matches shows (h.attendAfter e s' before' x') := by
  have hall : (h.attendAll e s before).map id (Scene.bare shows) =
      (h.attendAll e s' before').map id (Scene.bare shows) := by
    rw [← h.attendAll_bare he, ← h.attendAll_bare he, hs, hbefore]
  obtain ⟨hhandler, hscene⟩ := Prod.ext_iff.mp hall
  refine Turn.matches_of_bare ?_
  rw [attendAfter, attendAfter, ← attend_bare _ he, ← attend_bare _ he, hx]
  exact congrArg₂ (fun k y => attend k (e.bare shows) x'.bare y) hhandler hscene

end Handler

/-! ## Sends -/

/-- A plan sends no other delivery. -/
theorem Plan.Serves.sends_run {d : Delivery} {k : Nat} {plan : Plan} (h : plan.Serves d k)
    (e : Environment σ) (t : Tally) (s : Scene σ) :
    ∃ calls, (plan.run e t s).2.2.calls = s.calls ++ calls ∧ ∀ d', .send d' ∈ calls → d' = d := by
  induction plan generalizing k t s with
  | finish outcome => exact ⟨[], by simp [run], by simp⟩
  | log line rest ih => simpa [run] using ih h t (s.log line)
  | edit change rest ih => simpa [run] using ih h.2 t (s.edit change)
  | countRollback rest ih => exact ih h t.countRollback s
  | check q rest ih => exact ih _ (h.2 _) t s
  | call c rest ih =>
      obtain ⟨hown, k', -, hrest⟩ := h
      have hcall : ∀ d', .send d' ∈ [c] → d' = d := by
        intro d' hd'
        exact hown d' (by rw [← List.mem_singleton.mp hd']; rfl)
      rcases ha : e.answer c s.toSite with ⟨(crash | reply) | mark, site⟩
      · rw [run_call_crash ha]
        exact ⟨[c], by simp, hcall⟩
      · rw [run_call_ok ha]
        obtain ⟨calls, hcalls, hsends⟩ := ih reply (hrest reply) t (s.answered c (.ok reply) site)
        refine ⟨c :: calls, by simp [hcalls], fun d' hd' => ?_⟩
        rcases List.mem_cons.mp hd' with rfl | hd'
        · exact hcall d' (List.mem_singleton_self _)
        · exact hsends d' hd'
      · rw [run_call_waiting ha]
        exact ⟨[c], by simp, hcall⟩

/-- What is sent in a turn is the delivery in the slot that is shown, with its content. -/
theorem Handler.sends_attend (h : Handler) (e : Environment σ) (x : Event) (s : Scene σ) :
    ∃ calls, (h.attend e x s).scene.calls = s.calls ++ calls ∧
      ∀ d, .send d ∈ calls → x.slot.delivery = some d := by
  rw [attend, ← h.calls_see x.sequence x.last s]
  cases hclaim : h.claim? x.slot with
  | none => exact ⟨[], by rw [handle_of_foreign hclaim, List.append_nil], by simp⟩
  | some d =>
      obtain ⟨calls, hcalls, hsends⟩ := (Plan.serves_dispatch h.queue d x.slot.failed).sends_run e
        h.tally.countSeen.countOwned (h.see x.sequence x.last s).2
      refine ⟨calls, ?_, fun d' hd' => ?_⟩
      · rw [handle_of_claim hclaim, calls_conclude]
        exact hcalls
      · rw [hsends d' hd']
        exact (claim?_eq_some_iff.mp hclaim).1

end ShardedDelivery
