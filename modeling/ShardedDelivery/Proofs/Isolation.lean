import ShardedDelivery.Proofs.Plan.Scope

/-! # Isolation

The transports of a channel keep a part of the outside to themselves, and change nothing else but
the records of the message and the subscription that they are given. Then what a send does is a
function of its view, and a delivery is carried out alike in two scenes that agree on its channel,
whatever goes on elsewhere. -/

namespace ShardedDelivery

/-- What a transport sees of a delivery: its own part of the outside, and the records of the message
and the subscription. -/
structure View (τ : Type) where
  part : τ
  message : MessageRecord
  subscription : SubscriptionRecord

/-- How callees behave: transports by what they see, services, tracer and sink always alike. -/
structure Behaviour (τ : Type) where
  send : Delivery → View τ → Except Crash (Except SendFailure Unit) × View τ
  requeue : Message → Except Crash Unit
  moveToDeadLetters : Message → String → String → Except Crash (Except MoveError Unit)
  trace : TraceKind → Message → Except Crash Unit
  count : Metric → Except Crash Unit

/-- Callees, the part of the outside that the transports of each channel keep, and what the outside
is like as long as nobody changes how the callees behave. -/
structure Callees (σ τ : Type) where
  env : Environment σ
  part : σ → ChannelId → τ
  calm : σ → Prop

namespace Callees

variable {σ σ' τ : Type}

/-- What the transport of a delivery sees. -/
def view (a : Callees σ τ) (d : Delivery) (s : Site σ) : View τ where
  part := a.part s.outside d.subscription.channel
  message := s.books.messages.get d.message
  subscription := s.books.subscriptions.get d.subscription

/-- Nothing has changed but what the transport of a delivery sees. -/
structure Beside (a : Callees σ τ) (d : Delivery) (s s' : Site σ) : Prop where
  messages : ∀ m, m ≠ d.message → s'.books.messages.get m = s.books.messages.get m
  subscriptions : ∀ x, x ≠ d.subscription →
    s'.books.subscriptions.get x = s.books.subscriptions.get x
  parts : ∀ c, c ≠ d.subscription.channel → a.part s'.outside c = a.part s.outside c

/-- Nothing has changed that a transport sees. -/
structure Still (a : Callees σ τ) (s s' : Site σ) : Prop where
  books : s'.books = s.books
  parts : ∀ c, a.part s'.outside c = a.part s.outside c
  calm : a.calm s.outside → a.calm s'.outside

/-- A send that waits ends as it would have ended at once, with this view at its start. -/
def Resumes (a : Callees σ τ) (β : Behaviour τ) (d : Delivery) (mark : Nat) (v : View τ)
    (s : Site σ) : Prop :=
  ∀ t r t', a.calm t.outside → a.view d t = a.view d s → a.env.resume d mark t = some (r, t') →
    β.send d v = (r, a.view d t') ∧ a.Beside d t t' ∧ a.calm t'.outside

/-- The callees behave as described: a send depends on what its transport sees and changes nothing
else, whether it waits in between or not; everyone else answers always alike and changes nothing
that a transport sees. -/
structure Follows (a : Callees σ τ) (β : Behaviour τ) : Prop where
  ended : ∀ d s r s', a.calm s.outside → a.env.send d s = (.ended r, s') →
    β.send d (a.view d s) = (r, a.view d s') ∧ a.Beside d s s' ∧ a.calm s'.outside
  waits : ∀ d s mark s', a.calm s.outside → a.env.send d s = (.waiting mark, s') →
    a.Resumes β d mark (a.view d s) s' ∧ a.Beside d s s' ∧ a.calm s'.outside
  requeue : ∀ m s, a.calm s.outside →
    (a.env.requeue m s).1 = β.requeue m ∧ a.Still s (a.env.requeue m s).2
  moveToDeadLetters : ∀ m destination queue s, a.calm s.outside →
    (a.env.moveToDeadLetters m destination queue s).1 = β.moveToDeadLetters m destination queue ∧
      a.Still s (a.env.moveToDeadLetters m destination queue s).2
  trace : ∀ kind m s, a.calm s.outside →
    (a.env.trace kind m s).1 = β.trace kind m ∧ a.Still s (a.env.trace kind m s).2
  count : ∀ metric s, a.calm s.outside →
    (a.env.count metric s).1 = β.count metric ∧ a.Still s (a.env.count metric s).2

/-- No send waits. -/
def Prompt (a : Callees σ τ) : Prop :=
  ∀ d s, a.calm s.outside → ∃ r s', a.env.send d s = (.ended r, s')

/-- Two sites agree on all that belongs to these channels, with every message at home on one
channel. What the transport of a delivery in the air sees is left out. -/
structure Agree (a : Callees σ τ) (b : Callees σ' τ) (home : Message → ChannelId)
    (own : ChannelId → Prop) (air : Option Delivery) (s : Site σ) (s' : Site σ') : Prop where
  messages : ∀ m, own (home m) → (∀ d ∈ air, m ≠ d.message) →
    s.books.messages.get m = s'.books.messages.get m
  subscriptions : ∀ x : Subscription, own x.channel → (∀ d ∈ air, x ≠ d.subscription) →
    s.books.subscriptions.get x = s'.books.subscriptions.get x
  parts : ∀ c, own c → (∀ d ∈ air, c ≠ d.subscription.channel) →
    a.part s.outside c = b.part s'.outside c

section Changes

variable {a : Callees σ τ} {b : Callees σ' τ} {d : Delivery} {s s' t : Site σ} {u u' : Site σ'}
  {home : Message → ChannelId} {own : ChannelId → Prop} {air : Option Delivery}

theorem view_eq_iff : a.view d s = b.view d u ↔
    a.part s.outside d.subscription.channel = b.part u.outside d.subscription.channel ∧
      s.books.records d = u.books.records d := by
  simp only [view, View.mk.injEq, Books.records, Prod.mk.injEq]

theorem Beside.refl (a : Callees σ τ) (d : Delivery) (s : Site σ) : a.Beside d s s :=
  ⟨fun _ _ => rfl, fun _ _ => rfl, fun _ _ => rfl⟩

theorem Beside.trans (h : a.Beside d s s') (h' : a.Beside d s' t) : a.Beside d s t where
  messages m hm := (h'.messages m hm).trans (h.messages m hm)
  subscriptions x hx := (h'.subscriptions x hx).trans (h.subscriptions x hx)
  parts c hc := (h'.parts c hc).trans (h.parts c hc)

theorem Still.beside (h : a.Still s s') (d : Delivery) : a.Beside d s s' where
  messages m _ := by rw [h.books]
  subscriptions x _ := by rw [h.books]
  parts c _ := h.parts c

theorem Still.view_eq (h : a.Still s s') (d : Delivery) : a.view d s' = a.view d s := by
  rw [view, view, h.books, h.parts]

namespace Agree

theorem view_eq (h : a.Agree b home own none s u) (hown : own d.subscription.channel)
    (hhome : home d.message = d.subscription.channel) : a.view d s = b.view d u := by
  rw [view, view, h.messages _ (hhome ▸ hown) (by simp), h.subscriptions _ hown (by simp),
    h.parts _ hown (by simp)]

/-- While a delivery is in the air, only its own view may change. -/
theorem lift (h : a.Agree b home own none s u) (hs : a.Beside d s s') :
    a.Agree b home own (some d) s' u where
  messages m hm hd := by rw [hs.messages m (hd d rfl), h.messages m hm (by simp)]
  subscriptions x hx hd := by rw [hs.subscriptions x (hd d rfl), h.subscriptions x hx (by simp)]
  parts c hc hd := by rw [hs.parts c (hd d rfl), h.parts c hc (by simp)]

/-- When a delivery lands with the same view on both sides, they agree again. -/
theorem land (h : a.Agree b home own (some d) s u) (hs : a.Beside d s s') (hu : b.Beside d u u')
    (hv : a.view d s' = b.view d u') : a.Agree b home own none s' u' where
  messages m hm _ := by
    by_cases hd : m = d.message
    · rw [hd]
      exact congrArg View.message hv
    · rw [hs.messages m hd, hu.messages m hd]
      refine h.messages m hm fun d' hd' => ?_
      rw [Option.mem_some_iff] at hd'
      exact hd' ▸ hd
  subscriptions x hx _ := by
    by_cases hd : x = d.subscription
    · rw [hd]
      exact congrArg View.subscription hv
    · rw [hs.subscriptions x hd, hu.subscriptions x hd]
      refine h.subscriptions x hx fun d' hd' => ?_
      rw [Option.mem_some_iff] at hd'
      exact hd' ▸ hd
  parts c hc _ := by
    by_cases hd : c = d.subscription.channel
    · rw [hd]
      exact congrArg View.part hv
    · rw [hs.parts c hd, hu.parts c hd]
      refine h.parts c hc fun d' hd' => ?_
      rw [Option.mem_some_iff] at hd'
      exact hd' ▸ hd

/-- The two sides change alike. -/
theorem both (h : a.Agree b home own none s u) (hs : a.Beside d s s') (hu : b.Beside d u u')
    (hv : a.view d s' = b.view d u') : a.Agree b home own none s' u' :=
  (h.lift (Beside.refl a d s)).land hs hu hv

theorem refl (a : Callees σ τ) (home : Message → ChannelId) (own : ChannelId → Prop)
    (air : Option Delivery) (s : Site σ) : a.Agree a home own air s s :=
  ⟨fun _ _ _ => rfl, fun _ _ _ => rfl, fun _ _ _ => rfl⟩

theorem symm (h : a.Agree b home own air s u) : b.Agree a home own air u s where
  messages m hm hd := (h.messages m hm hd).symm
  subscriptions x hx hd := (h.subscriptions x hx hd).symm
  parts c hc hd := (h.parts c hc hd).symm

theorem weaken (h : a.Agree b home own none s u) (air : Option Delivery) :
    a.Agree b home own air s u where
  messages m hm _ := h.messages m hm (by simp)
  subscriptions x hx _ := h.subscriptions x hx (by simp)
  parts c hc _ := h.parts c hc (by simp)

theorem trans {σ'' : Type} {c : Callees σ'' τ} {v : Site σ''} (h : a.Agree b home own air s u)
    (h' : b.Agree c home own air u v) : a.Agree c home own air s v where
  messages m hm hd := (h.messages m hm hd).trans (h'.messages m hm hd)
  subscriptions x hx hd := (h.subscriptions x hx hd).trans (h'.subscriptions x hx hd)
  parts c hc hd := (h.parts c hc hd).trans (h'.parts c hc hd)

end Agree

/-- A delivery on another channel changes nothing here. -/
theorem Beside.agree (h : a.Beside d s s') (hown : ¬ own d.subscription.channel)
    (hhome : home d.message = d.subscription.channel) : a.Agree a home own none s' s where
  messages m hm _ := h.messages m fun heq => hown (by rwa [heq, hhome] at hm)
  subscriptions x hx _ := h.subscriptions x fun heq => hown (by rwa [heq] at hx)
  parts c hc _ := h.parts c fun heq => hown (by rwa [heq] at hc)

theorem Still.agree (h : a.Still s s') : a.Agree a home own none s' s where
  messages m _ _ := by rw [h.books]
  subscriptions x _ _ := by rw [h.books]
  parts c _ _ := h.parts c

theorem Resumes.congr {β : Behaviour τ} {mark : Nat} {v : View τ} (h : a.Resumes β d mark v s)
    (hv : a.view d s' = a.view d s) : a.Resumes β d mark v s' :=
  fun t r t' ht hs hr => h t r t' ht (hs.trans hv) hr

end Changes

end Callees

end ShardedDelivery
