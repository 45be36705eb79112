import ShardedDelivery.Store

/-! # Stores and their past

What a store holds and what it answers is told by what it was asked before: it neither loses nor
makes up a message or a dead letter, and the two kinds do not meet. -/

namespace ShardedDelivery.Store

/-- What a store is asked. -/
inductive Request where
  | requeue (m : Message)
  | takeRequeued
  | requeuedIds
  | moveToDeadLetters (m : Message) (destination queue : String) (now : UInt64)
  | setRefusing (refusing : Bool)
  | deadLetters
  | deadLettersFor (destination : String)

namespace Request

/-- What a request is answered with. -/
abbrev Answer : Request → Type
  | requeue _ => Unit
  | takeRequeued => List Message
  | requeuedIds => List MessageId
  | moveToDeadLetters .. => Except MoveError Unit
  | setRefusing _ => Unit
  | deadLetters => List DeadLetter
  | deadLettersFor _ => List DeadLetter

/-- Whether a request is about messages that wait to be taken, and not about dead letters. -/
def isRequeue : Request → Bool
  | requeue _ | takeRequeued | requeuedIds => true
  | _ => false

end Request

/-- A request and its answer. -/
structure Exchange where
  request : Request
  answer : request.Answer

/-- Answers a request. -/
def perform (s : Store) : (r : Request) → r.Answer × Store
  | .requeue m => ((), s.requeue m)
  | .takeRequeued => s.takeRequeued
  | .requeuedIds => (s.requeuedIds, s)
  | .moveToDeadLetters m destination queue now => s.moveToDeadLetters m destination queue now
  | .setRefusing refusing => ((), s.setRefusing refusing)
  | .deadLetters => (s.deadLetters, s)
  | .deadLettersFor destination => (s.deadLettersFor destination, s)

/-- Answers requests one after another. -/
def performAll (s : Store) : List Request → List Exchange × Store
  | [] => ([], s)
  | r :: requests =>
      let (answer, next) := s.perform r
      let (later, last) := next.performAll requests
      (⟨r, answer⟩ :: later, last)

/-- The exchanges of a new store that was asked this. -/
def history (requests : List Request) : List Exchange := (performAll {} requests).1

/-- A new store after it was asked this. -/
def after (requests : List Request) : Store := (performAll {} requests).2

/-! ## The past -/

namespace Exchange

/-- The message that was requeued. -/
def requeued? : Exchange → Option Message
  | ⟨.requeue m, _⟩ => some m
  | _ => none

/-- The messages that were taken. -/
def taken : Exchange → List Message
  | ⟨.takeRequeued, messages⟩ => messages
  | _ => []

/-- The dead letter that a move was to make, if it succeeded. -/
def moved? : Exchange → Option DeadLetter
  | ⟨.moveToDeadLetters m destination queue now, .ok _⟩ => some ⟨m.id, destination, queue, now⟩
  | _ => none

/-- Whether moves are refused from then on. -/
def refusing? : Exchange → Option Bool
  | ⟨.setRefusing refusing, _⟩ => some refusing
  | _ => none

end Exchange

section Past

/-- All messages that were requeued, in order. -/
def requeues (past : List Exchange) : List Message := past.filterMap Exchange.requeued?

/-- All messages that were taken, in order. -/
def taken (past : List Exchange) : List Message := past.flatMap Exchange.taken

/-- All moves that succeeded, in order. -/
def moves (past : List Exchange) : List DeadLetter := past.filterMap Exchange.moved?

/-- Whether moves are refused: what was said last, and at first they are not. -/
def refuses (past : List Exchange) : Bool := (past.filterMap Exchange.refusing?).getLastD false

variable (past : List Exchange) (x : Exchange)

theorem requeues_concat : requeues (past ++ [x]) = requeues past ++ x.requeued?.toList := by
  cases h : x.requeued? <;> simp [requeues, h]

theorem taken_concat : taken (past ++ [x]) = taken past ++ x.taken := by
  simp [taken]

theorem moves_concat : moves (past ++ [x]) = moves past ++ x.moved?.toList := by
  cases h : x.moved? <;> simp [moves, h]

theorem refuses_concat : refuses (past ++ [x]) = x.refusing?.getD (refuses past) := by
  cases h : x.refusing? <;> simp [refuses, h]

end Past

/-- The answer is right after this past. -/
def Exchange.Fits (past : List Exchange) : Exchange → Prop
  | ⟨.takeRequeued, messages⟩ => Store.taken past ++ messages = requeues past
  | ⟨.requeuedIds, ids⟩ =>
      ∃ held : List Message, Store.taken past ++ held = requeues past ∧ ids = held.map (·.id)
  | ⟨.moveToDeadLetters m _ queue _, result⟩ =>
      result = if refuses past then .error ⟨m.id, queue, "store rejected move"⟩ else .ok ()
  | ⟨.deadLetters, letters⟩ => letters = moves past
  | ⟨.deadLettersFor destination, letters⟩ =>
      letters = (moves past).filter (·.destination = destination)
  | ⟨.requeue _, _⟩ | ⟨.setRefusing _, _⟩ => True

/-! ## One request -/

section Step

variable (s : Store)

/-- What a request takes out was there or is put in by it, and the rest stays. -/
theorem requeued_perform (r : Request) :
    Exchange.taken ⟨r, (s.perform r).1⟩ ++ (s.perform r).2.requeued =
      s.requeued ++ (Exchange.requeued? ⟨r, (s.perform r).1⟩).toList := by
  cases r with
  | moveToDeadLetters m destination queue now =>
      cases hs : s.refusing <;>
        simp [perform, moveToDeadLetters, hs, Exchange.taken, Exchange.requeued?]
  | _ => simp [perform, requeue, takeRequeued, setRefusing, Exchange.taken, Exchange.requeued?]

theorem deadLetters_perform (r : Request) :
    (s.perform r).2.deadLetters =
      s.deadLetters ++ (Exchange.moved? ⟨r, (s.perform r).1⟩).toList := by
  cases r with
  | moveToDeadLetters m destination queue now =>
      cases hs : s.refusing <;> simp [perform, moveToDeadLetters, hs, Exchange.moved?]
  | _ => simp [perform, requeue, takeRequeued, setRefusing, Exchange.moved?]

theorem refusing_perform (r : Request) :
    (s.perform r).2.refusing =
      (Exchange.refusing? ⟨r, (s.perform r).1⟩).getD s.refusing := by
  cases r with
  | moveToDeadLetters m destination queue now =>
      cases hs : s.refusing <;> simp [perform, moveToDeadLetters, hs, Exchange.refusing?]
  | _ => simp [perform, requeue, takeRequeued, setRefusing, Exchange.refusing?]

end Step

/-- A refused move changes nothing. -/
theorem moveToDeadLetters_of_refusing {s : Store} (h : s.refusing) (m : Message)
    (destination queue : String) (now : UInt64) :
    s.moveToDeadLetters m destination queue now =
      (.error ⟨m.id, queue, "store rejected move"⟩, s) := by
  rw [moveToDeadLetters, if_pos h]

/-! ## The whole past -/

/-- The store is what this past has made of a new one. -/
structure Follows (s : Store) (past : List Exchange) : Prop where
  requeued : taken past ++ s.requeued = requeues past
  deadLetters : s.deadLetters = moves past
  refusing : s.refusing = refuses past

namespace Follows

variable {s : Store} {past : List Exchange}

theorem new : ({} : Store).Follows [] := ⟨rfl, rfl, rfl⟩

theorem perform (h : s.Follows past) (r : Request) :
    (s.perform r).2.Follows (past ++ [⟨r, (s.perform r).1⟩]) where
  requeued := by
    rw [taken_concat, List.append_assoc, requeued_perform, ← List.append_assoc, h.requeued,
      requeues_concat]
  deadLetters := by rw [deadLetters_perform, h.deadLetters, moves_concat]
  refusing := by rw [refusing_perform, h.refusing, refuses_concat]

/-- The answer to a request is right after the past. -/
theorem fits (h : s.Follows past) (r : Request) : Exchange.Fits past ⟨r, (s.perform r).1⟩ := by
  cases r with
  | requeue m => trivial
  | takeRequeued => exact h.requeued
  | requeuedIds => exact ⟨s.requeued, h.requeued, rfl⟩
  | moveToDeadLetters m destination queue now =>
      rw [Exchange.Fits, ← h.refusing, Store.perform, moveToDeadLetters]
      split <;> rfl
  | setRefusing refusing => trivial
  | deadLetters => exact h.deadLetters
  | deadLettersFor destination =>
      rw [Exchange.Fits, ← h.deadLetters]
      rfl

theorem performAll (h : s.Follows past) (requests : List Request) :
    (s.performAll requests).2.Follows (past ++ (s.performAll requests).1) := by
  induction requests generalizing s past with
  | nil => simpa [Store.performAll] using h
  | cons r requests ih => simpa [Store.performAll] using ih (h.perform r)

/-- Every answer is right after what came before it. -/
theorem answers (h : s.Follows past) {requests : List Request} {before later : List Exchange}
    {x : Exchange} (hx : (s.performAll requests).1 = before ++ x :: later) :
    x.Fits (past ++ before) := by
  induction requests generalizing s past before with
  | nil => simp [Store.performAll] at hx
  | cons r requests ih =>
      rw [Store.performAll] at hx
      cases before with
      | nil =>
          obtain ⟨rfl, -⟩ := List.cons.inj hx
          simpa using h.fits r
      | cons y before =>
          obtain ⟨rfl, hlater⟩ := List.cons.inj hx
          simpa using ih (h.perform r) hlater

end Follows

/-! ## Two halves -/

/-- These requests are about this part of the store, and no others are. -/
structure Concerns {α : Type} (mine : Request → Bool) (part : Store → α) : Prop where
  others : ∀ (s : Store) r, mine r = false → part (s.perform r).2 = part s
  alike : ∀ (s u : Store) r, mine r = true → part s = part u →
    (s.perform r).1 = (u.perform r).1 ∧ part (s.perform r).2 = part (u.perform r).2

theorem concerns_requeued : Concerns Request.isRequeue (·.requeued) where
  others s r hr := by
    cases r with
    | moveToDeadLetters m destination queue now =>
        rw [perform, moveToDeadLetters]
        split <;> rfl
    | setRefusing | deadLetters | deadLettersFor => rfl
    | requeue | takeRequeued | requeuedIds => cases hr
  alike s u r hr h := by
    cases r with
    | requeue m => exact ⟨rfl, congrArg (· ++ [m]) h⟩
    | takeRequeued => exact ⟨h, rfl⟩
    | requeuedIds => exact ⟨congrArg (List.map Message.id) h, h⟩
    | _ => cases hr

theorem concerns_deadLetters :
    Concerns (fun r => !r.isRequeue) fun s => (s.deadLetters, s.refusing) where
  others s r hr := by
    cases r with
    | requeue | takeRequeued | requeuedIds => rfl
    | _ => cases hr
  alike s u r hr h := by
    obtain ⟨hletters, hrefusing⟩ := Prod.mk.inj h
    cases r with
    | moveToDeadLetters m destination queue now =>
        simp only [perform, moveToDeadLetters, hrefusing]
        split <;> simp [hletters, hrefusing]
    | setRefusing refusing => exact ⟨rfl, congrArg (·, refusing) hletters⟩
    | deadLetters => exact ⟨hletters, h⟩
    | deadLettersFor destination => exact ⟨congrArg (List.filter _) hletters, h⟩
    | requeue | takeRequeued | requeuedIds => cases hr

/-- Requests about a part of the store go as if there were no others. -/
theorem Concerns.performAll {α : Type} {mine : Request → Bool} {part : Store → α}
    (h : Concerns mine part) {s u : Store} (hpart : part s = part u) (requests : List Request) :
    (s.performAll requests).1.filter (fun x => mine x.request) =
        (u.performAll (requests.filter mine)).1 ∧
      part (s.performAll requests).2 = part (u.performAll (requests.filter mine)).2 := by
  induction requests generalizing s u with
  | nil => exact ⟨rfl, hpart⟩
  | cons r requests ih =>
      cases hr : mine r with
      | false =>
          obtain ⟨hhistory, hlast⟩ := ih ((h.others s r hr).trans hpart)
          simpa [Store.performAll, hr] using ⟨hhistory, hlast⟩
      | true =>
          obtain ⟨hanswer, hnext⟩ := h.alike s u r hr hpart
          obtain ⟨hhistory, hlast⟩ := ih hnext
          simpa [Store.performAll, hr, hanswer] using ⟨hhistory, hlast⟩

/-! ## Histories -/

theorem request_performAll (s : Store) (requests : List Request) :
    (s.performAll requests).1.map (·.request) = requests := by
  induction requests generalizing s with
  | nil => rfl
  | cons r requests ih => rw [performAll, List.map_cons, ih]

theorem count_deadLettersFor (s : Store) (letter : DeadLetter) (destination : String) :
    (s.deadLettersFor destination).count letter =
      if letter.destination = destination then s.deadLetters.count letter else 0 := by
  rw [deadLettersFor]
  split
  · next h => exact List.count_filter (by simpa using h)
  · next h => exact List.count_eq_zero_of_not_mem (by simp [h])

/-- A new store that was asked this has kept everything that it was given, and nothing else. -/
structure Faithful (requests : List Request) : Prop where
  asked : (history requests).map (·.request) = requests
  /-- What was taken, and then what is held, is what was requeued, in order. -/
  requeued : taken (history requests) ++ (after requests).requeued = requeues (history requests)
  /-- The dead letters are the moves that succeeded, in order. -/
  deadLetters : (after requests).deadLetters = moves (history requests)
  /-- Every answer is right after what came before it. -/
  answers : ∀ before x later, history requests = before ++ x :: later → x.Fits before
  /-- While moves are refused they fail, and change nothing. -/
  refused : refuses (history requests) → ∀ m destination queue now,
    (after requests).moveToDeadLetters m destination queue now =
      (.error ⟨m.id, queue, "store rejected move"⟩, after requests)
  /-- A dead letter is found under its own destination, as often as it is there, and under no
  other. -/
  shared : ∀ letter destination, ((after requests).deadLettersFor destination).count letter =
    if letter.destination = destination then (after requests).deadLetters.count letter else 0
  /-- Requeued messages are as if there were no dead letters. -/
  requeuedAlone :
    (history requests).filter (·.request.isRequeue) = history (requests.filter (·.isRequeue)) ∧
      (after requests).requeued = (after (requests.filter (·.isRequeue))).requeued
  /-- Dead letters are as if no messages were requeued. -/
  deadLettersAlone :
    (history requests).filter (!·.request.isRequeue) = history (requests.filter (!·.isRequeue)) ∧
      (after requests).deadLetters = (after (requests.filter (!·.isRequeue))).deadLetters

/-- A store neither loses nor makes up anything, whatever it is asked and in whatever order. -/
theorem faithful (requests : List Request) : Faithful requests := by
  have h : (after requests).Follows (history requests) := Follows.new.performAll requests
  have hrequeued := concerns_requeued.performAll rfl requests (s := {}) (u := {})
  have hletters := concerns_deadLetters.performAll rfl requests (s := {}) (u := {})
  exact {
    asked := request_performAll {} requests
    requeued := h.requeued
    deadLetters := h.deadLetters
    answers := fun before x later hx => Follows.new.answers hx
    refused := fun hrefuses => moveToDeadLetters_of_refusing (h.refusing.trans hrefuses)
    shared := count_deadLettersFor (after requests)
    requeuedAlone := hrequeued
    deadLettersAlone := ⟨hletters.1, congrArg Prod.fst hletters.2⟩ }

end ShardedDelivery.Store
