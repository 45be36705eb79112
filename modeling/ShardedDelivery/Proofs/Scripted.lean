import Mathlib.Logic.Function.Basic
import ShardedDelivery.Proofs.Plan.Lockstep
import ShardedDelivery.Scripted

/-! # Scripted callees mind their own channels

A scripted send reads the script of its subscription and edits the records of its delivery. The
services, the tracer and the sink always answer alike, as long as nobody tampers with them. -/

namespace ShardedDelivery.Scripted

/-- The scripts on a channel, with the sends so far. -/
abbrev Scripts := Subscription → List Cue × Nat

/-- How the services, the tracer and the sink are faulty. -/
structure Mood where
  requeue : Fault
  deadLetter : Fault
  tracer : Fault
  metrics : Fault
  refusing : Bool
deriving DecidableEq

namespace Cast

def mood (c : Cast) : Mood :=
  ⟨c.requeueFault, c.deadLetterFault, c.tracerFault, c.metricsFault, c.store.refusing⟩

def scripts (c : Cast) (ch : ChannelId) : Scripts := fun s =>
  if s.channel = ch then ((c.part s).cues, (c.part s).sends) else default

end Cast

/-- The scripted callees in a mood. Only with `waits` may a script have cues that wait. -/
def callees (listening waits : Bool) (mood : Mood) : Callees Cast Scripts where
  env := environment listening
  part := Cast.scripts
  calm c := c.mood = mood ∧ ∀ s, ∀ cue ∈ (c.part s).cues, cue.waits → waits

/-- What is left of a view once a cue has been played. -/
def Cue.after (cue : Cue) (d : Delivery) (v : View Scripts) : View Scripts :=
  let books : Books :=
    { messages := ({} : Table Message MessageRecord).set d.message v.message
      subscriptions :=
        ({} : Table Subscription SubscriptionRecord).set d.subscription v.subscription }
  let records := (books.applyAll (cue.edits d)).records d
  { v with message := records.1, subscription := records.2 }

/-- How the scripted callees behave in a mood. -/
def behaviour (listening : Bool) (mood : Mood) : Behaviour Scripts where
  send d v :=
    let (cues, sends) := v.part d.subscription
    let cue := Part.cue { cues } sends
    (cue.result, cue.after d
      { v with part := Function.update v.part d.subscription (cues, sends + 1) })
  requeue _ := mood.requeue.crash? "requeue"
  moveToDeadLetters m _ queue :=
    match mood.deadLetter with
    | .crashing => .error (.saying "dead_letter broken")
    | .refusing reason => .ok (.error ⟨m.id, queue, reason⟩)
    | .sound => .ok (if mood.refusing then .error ⟨m.id, queue, "store rejected move"⟩ else .ok ())
  trace _ _ := if listening then mood.tracer.crash? "tracer" else .ok ()
  count _ := if listening then mood.metrics.crash? "metrics" else .ok ()

variable (listening waits : Bool) (mood : Mood) {d : Delivery} {s s' t : Site Cast}

theorem Cast.scripts_self (c : Cast) (s : Subscription) :
    c.scripts s.channel s = ((c.part s).cues, (c.part s).sends) := if_pos rfl

theorem Cue.concerns (cue : Cue) (d : Delivery) : ∀ change ∈ cue.edits d, change.Concerns d := by
  intro change h
  simp only [Cue.edits, List.mem_append] at h
  rcases h with (h | h) | h
  · split at h
    · rw [List.mem_singleton.mp h]
      rfl
    · contradiction
  · obtain ⟨disposable, -, rfl⟩ := Option.map_eq_some_iff.mp (Option.mem_toList.mp h)
    rfl
  · split at h
    · rw [List.mem_singleton.mp h]
      rfl
    · contradiction

/-- A cue makes of a view what is left of it, and concerns nobody else. -/
theorem play_spec (cue : Cue) (d : Delivery) (s : Site Cast) :
    (callees listening waits mood).view d (play cue d s).2 =
        cue.after d ((callees listening waits mood).view d s) ∧
      (callees listening waits mood).Beside d s (play cue d s).2 := by
  have hspec := Books.applyAll_spec (cue.concerns d)
  refine ⟨?_, (hspec s.books s.books).2.1, (hspec s.books s.books).2.2, fun _ _ => rfl⟩
  let books : Books :=
    { messages := ({} : Table Message MessageRecord).set d.message (s.books.messages.get d.message)
      subscriptions := ({} : Table Subscription SubscriptionRecord).set d.subscription
        (s.books.subscriptions.get d.subscription) }
  have hsame : s.books.records d = books.records d := by simp [books, Books.records]
  have hrecords := (hspec s.books books).1 hsame
  exact congrArg (fun r => View.mk (s.outside.scripts d.subscription.channel) r.1 r.2) hrecords

/-- No transport can see that a permit is used. -/
theorem usePermit?_still (h : usePermit? d s = some s') :
    (callees listening waits mood).Still s s' := by
  unfold usePermit? at h
  split at h
  · contradiction
  · cases h
    have hpart (x : Subscription) :
        ((s.outside.parts.modify d.subscription fun p => { p with permits := p.permits - 1 }).get
          x).cues = (s.outside.part x).cues ∧
        ((s.outside.parts.modify d.subscription fun p => { p with permits := p.permits - 1 }).get
          x).sends = (s.outside.part x).sends := by
      rw [Table.get_modify]
      split <;> exact ⟨rfl, rfl⟩
    refine ⟨rfl, fun ch => ?_, fun hcalm => ⟨hcalm.1, fun x => ?_⟩⟩
    · funext x
      simp only [callees, Cast.scripts, Cast.part, (hpart x).1, (hpart x).2]
    · have hcues := hcalm.2 x
      rwa [← (hpart x).1] at hcues

/-- The script of a delivery is part of its view. -/
theorem cue_eq_of_view
    (h : (callees listening waits mood).view d s = (callees listening waits mood).view d t)
    (n : Nat) : (s.outside.part d.subscription).cue n = (t.outside.part d.subscription).cue n := by
  have hscripts : s.outside.scripts d.subscription.channel d.subscription =
      t.outside.scripts d.subscription.channel d.subscription :=
    congrFun (congrArg View.part h) d.subscription
  rw [Cast.scripts_self, Cast.scripts_self, Prod.mk.injEq] at hscripts
  rw [Part.cue, Part.cue, hscripts.1]

/-- A send that waited plays its cue. -/
theorem resume_spec {mark : Nat} {r : Except Crash (Except SendFailure Unit)}
    (h : resume d mark s = some (r, s')) :
    r = ((s.outside.part d.subscription).cue mark).result ∧
      (callees listening waits mood).view d s' =
        ((s.outside.part d.subscription).cue mark).after d
          ((callees listening waits mood).view d s) ∧
      (callees listening waits mood).Beside d s s' ∧
      ((callees listening waits mood).calm s.outside →
        (callees listening waits mood).calm s'.outside) := by
  obtain ⟨u, hu, heq⟩ := Option.map_eq_some_iff.mp h
  obtain rfl : r = ((s.outside.part d.subscription).cue mark).result := (congrArg Prod.fst heq).symm
  obtain rfl : s' = (play ((s.outside.part d.subscription).cue mark) d u).2 :=
    (congrArg Prod.snd heq).symm
  have hstill := usePermit?_still listening waits mood hu
  obtain ⟨hview, hbeside⟩ := play_spec listening waits mood
    ((s.outside.part d.subscription).cue mark) d u
  refine ⟨rfl, ?_, (hstill.beside d).trans hbeside, hstill.calm⟩
  rw [hview, hstill.view_eq]

/-- A send that has started. -/
def started (d : Delivery) (s : Site Cast) : Site Cast :=
  let part := s.outside.part d.subscription
  let parts := s.outside.parts.set d.subscription { part with sends := part.sends + 1 }
  { s with outside := { s.outside with parts } }

theorem started_spec (d : Delivery) (s : Site Cast) :
    (callees listening waits mood).view d (started d s) =
        { (callees listening waits mood).view d s with
          part := Function.update (s.outside.scripts d.subscription.channel) d.subscription
            ((s.outside.part d.subscription).cues, (s.outside.part d.subscription).sends + 1) } ∧
      (callees listening waits mood).Beside d s (started d s) ∧
      ((callees listening waits mood).calm s.outside →
        (callees listening waits mood).calm (started d s).outside) := by
  have hpart (x : Subscription) : (started d s).outside.part x =
      if d.subscription = x then
        { s.outside.part d.subscription with sends := (s.outside.part d.subscription).sends + 1 }
      else s.outside.part x :=
    Table.get_set _ _ _ _
  refine ⟨?_, ⟨fun _ _ => rfl, fun _ _ => rfl, fun ch hch => ?_⟩,
    fun hcalm => ⟨hcalm.1, fun x => ?_⟩⟩
  · have hscripts : (started d s).outside.scripts d.subscription.channel =
        Function.update (s.outside.scripts d.subscription.channel) d.subscription
          ((s.outside.part d.subscription).cues, (s.outside.part d.subscription).sends + 1) := by
      funext x
      by_cases hx : x = d.subscription
      · subst hx
        rw [Function.update_self, Cast.scripts_self, hpart, if_pos rfl]
      · rw [Function.update_of_ne hx, Cast.scripts, Cast.scripts, hpart, if_neg (Ne.symm hx)]
    exact congrArg (fun part => View.mk part _ _) hscripts
  · funext x
    have hx : x.channel = ch → d.subscription ≠ x := by
      rintro rfl rfl
      exact hch rfl
    by_cases hxc : x.channel = ch
    · simp only [callees, Cast.scripts, hpart, if_neg (hx hxc)]
    · simp only [callees, Cast.scripts, if_neg hxc]
  · rw [hpart]
    split
    · exact hcalm.2 d.subscription
    · exact hcalm.2 x

/-- A send plays the next cue of its script, at once or when it is resumed. -/
theorem behaviour_send (d : Delivery) (s : Site Cast) :
    (behaviour listening mood).send d ((callees listening waits mood).view d s) =
      (((s.outside.part d.subscription).cue (s.outside.part d.subscription).sends).result,
        ((s.outside.part d.subscription).cue (s.outside.part d.subscription).sends).after d
          ((callees listening waits mood).view d (started d s))) := by
  have hpart : ((callees listening waits mood).view d s).part d.subscription =
      ((s.outside.part d.subscription).cues, (s.outside.part d.subscription).sends) :=
    Cast.scripts_self _ _
  simp only [behaviour, hpart, (started_spec listening waits mood d s).1]
  rfl

theorem send_eq (d : Delivery) (s : Site Cast) :
    send d s =
      if ((s.outside.part d.subscription).cue (s.outside.part d.subscription).sends).waits then
        match resume d (s.outside.part d.subscription).sends (started d s) with
        | some (result, s') => (.ended result, s')
        | none => (.waiting (s.outside.part d.subscription).sends, started d s)
      else
        (.ended ((s.outside.part d.subscription).cue (s.outside.part d.subscription).sends).result,
          (play ((s.outside.part d.subscription).cue (s.outside.part d.subscription).sends) d
            (started d s)).2) := rfl

/-- A send that has started still has its script. -/
theorem cue_started (d : Delivery) (s : Site Cast) (n : Nat) :
    ((started d s).outside.part d.subscription).cue n =
      (s.outside.part d.subscription).cue n := by
  have hpart : (started d s).outside.part d.subscription =
      { s.outside.part d.subscription with sends := (s.outside.part d.subscription).sends + 1 } :=
    Table.get_set_self _ _ _
  rw [hpart]
  rfl

/-- The services leave everything but the store as it is. -/
theorem still_of_parts (hbooks : s'.books = s.books) (hparts : s'.outside.parts = s.outside.parts)
    (hmood : s'.outside.mood = s.outside.mood) : (callees listening waits mood).Still s s' where
  books := hbooks
  parts ch := by
    funext x
    simp only [callees, Cast.scripts, Cast.part, hparts]
  calm hcalm := by
    refine ⟨hmood.trans hcalm.1, ?_⟩
    simp only [Cast.part, hparts]
    exact hcalm.2

theorem requeue_spec (m : Message) (s : Site Cast) :
    (requeue m s).1 = (behaviour listening s.outside.mood).requeue m ∧
      (requeue m s).2.books = s.books ∧ (requeue m s).2.outside.parts = s.outside.parts ∧
        (requeue m s).2.outside.mood = s.outside.mood := by
  unfold requeue
  split
  · rename_i crash hcrash
    exact ⟨hcrash.symm, rfl, rfl, rfl⟩
  · rename_i hsound
    exact ⟨hsound.symm, rfl, rfl, rfl⟩

theorem moveToDeadLetters_spec (m : Message) (destination queue : String) (s : Site Cast) :
    (moveToDeadLetters m destination queue s).1 =
        (behaviour listening s.outside.mood).moveToDeadLetters m destination queue ∧
      (moveToDeadLetters m destination queue s).2.books = s.books ∧
        (moveToDeadLetters m destination queue s).2.outside.parts = s.outside.parts ∧
          (moveToDeadLetters m destination queue s).2.outside.mood = s.outside.mood := by
  unfold moveToDeadLetters
  cases hfault : s.outside.deadLetterFault with
  | crashing => simp [behaviour, Cast.mood, hfault]
  | refusing reason => simp [behaviour, Cast.mood, hfault]
  | sound =>
      cases hstore : s.outside.store.refusing <;>
        simp [behaviour, Cast.mood, Store.moveToDeadLetters, hfault, hstore]

/-- In a mood, the scripted callees behave as described. -/
theorem follows (listening waits : Bool) (mood : Mood) :
    (callees listening waits mood).Follows (behaviour listening mood) where
  ended := by
    intro d s r s' hcalm h
    obtain ⟨-, hstarted, hstays⟩ :=
      started_spec listening waits mood d s
    rw [behaviour_send]
    change send d s = _ at h
    rw [send_eq] at h
    split at h
    · split at h
      · rename_i result u hresume
        cases h
        obtain ⟨hr, hview, hbeside, hcalm'⟩ :=
          resume_spec listening waits mood hresume
        rw [cue_started] at hr hview
        rw [hr, hview]
        exact ⟨rfl, hstarted.trans hbeside, hcalm' (hstays hcalm)⟩
      · cases h
    · cases h
      obtain ⟨hview, hbeside⟩ := play_spec listening waits mood
        ((s.outside.part d.subscription).cue (s.outside.part d.subscription).sends) d (started d s)
      rw [hview]
      exact ⟨rfl, hstarted.trans hbeside, hstays hcalm⟩
  waits := by
    intro d s mark s' hcalm h
    obtain ⟨-, hstarted, hstays⟩ :=
      started_spec listening waits mood d s
    change send d s = _ at h
    rw [send_eq] at h
    split at h
    · split at h
      · cases h
      · cases h
        refine ⟨?_, hstarted, hstays hcalm⟩
        intro t r t' ht hview hresume
        obtain ⟨hr, hview', hbeside, hcalm'⟩ :=
          resume_spec listening waits mood hresume
        rw [cue_eq_of_view listening waits mood hview, cue_started] at hr hview'
        rw [behaviour_send, hr, hview', hview]
        exact ⟨rfl, hbeside, hcalm' ht⟩
    · cases h
  requeue := by
    rintro m s ⟨rfl, hwaits⟩
    obtain ⟨hanswer, hbooks, hparts, hmood⟩ := requeue_spec listening m s
    exact ⟨hanswer, still_of_parts listening waits _ hbooks hparts hmood⟩
  moveToDeadLetters := by
    rintro m destination queue s ⟨rfl, hwaits⟩
    obtain ⟨hanswer, hbooks, hparts, hmood⟩ :=
      moveToDeadLetters_spec listening m destination queue s
    exact ⟨hanswer, still_of_parts listening waits _ hbooks hparts hmood⟩
  trace := by
    rintro kind m s ⟨rfl, hwaits⟩
    exact ⟨rfl, rfl, fun _ => rfl, id⟩
  count := by
    rintro metric s ⟨rfl, hwaits⟩
    exact ⟨rfl, rfl, fun _ => rfl, id⟩

/-- Without cues that wait, no send waits. -/
theorem prompt (listening : Bool) (mood : Mood) : (callees listening false mood).Prompt := by
  intro d s hcalm
  have hwaits : ¬ ((s.outside.part d.subscription).cue
      (s.outside.part d.subscription).sends).waits := by
    unfold Part.cue
    cases hget : (s.outside.part d.subscription).cues[min (s.outside.part d.subscription).sends
        ((s.outside.part d.subscription).cues.length - 1)]? with
    | none => simp
    | some cue =>
        have hcue := hcalm.2 d.subscription cue (List.mem_of_getElem? hget)
        simpa using hcue
  have hsend := send_eq d s
  rw [if_neg hwaits] at hsend
  exact ⟨_, _, hsend⟩

end ShardedDelivery.Scripted
