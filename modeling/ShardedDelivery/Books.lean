import ShardedDelivery.Channel.Text
import ShardedDelivery.Message
import ShardedDelivery.Roster
import ShardedDelivery.Subscription
import ShardedDelivery.Table

/-! # The books

For every message its flags, the channels it is scheduled for and the failures counted on each;
for every subscription whether it is active and which messages it has in flight. Every change
is an `Edit`, and a rollback is three of them. What a change does to each view of the books is
one lemma, such as `failures_apply`. -/

namespace ShardedDelivery

/-- What the books hold on a message. -/
structure MessageRecord where
  stale : Bool := false
  disposable : Bool := false
  scheduled : Roster ChannelId := {}
  failures : Table ChannelId UInt32 := {}

instance : Inhabited MessageRecord := ⟨{}⟩

/-- What the books hold on a subscription. -/
structure SubscriptionRecord where
  active : Bool := true
  sent : Roster MessageId := {}

instance : Inhabited SubscriptionRecord := ⟨{}⟩

/-- The delivery state of all messages and subscriptions. -/
structure Books where
  messages : Table Message MessageRecord := {}
  subscriptions : Table Subscription SubscriptionRecord := {}

instance : Inhabited Books := ⟨{}⟩

/-- One change of the books. -/
inductive Edit where
  | setStale (m : Message) (stale : Bool)
  | setDisposable (m : Message) (disposable : Bool)
  | setActive (s : Subscription) (active : Bool)
  | schedule (m : Message) (c : ChannelId)
  | unschedule (m : Message) (c : ChannelId)
  | countFailure (m : Message) (c : ChannelId)
  | track (s : Subscription) (id : MessageId)
  | untrack (s : Subscription) (id : MessageId)
deriving DecidableEq, Repr

namespace Books

def isStale (b : Books) (m : Message) : Bool := (b.messages.get m).stale

def isDisposable (b : Books) (m : Message) : Bool := (b.messages.get m).disposable

def isActive (b : Books) (s : Subscription) : Bool := (b.subscriptions.get s).active

/-- The channels that a message is scheduled for. -/
def scheduled (b : Books) (m : Message) : Roster ChannelId := (b.messages.get m).scheduled

/-- The failures counted for a message on a channel. -/
def failures (b : Books) (m : Message) (c : ChannelId) : UInt32 := (b.messages.get m).failures.get c

/-- The messages that a subscription has in flight. -/
def sent (b : Books) (s : Subscription) : Roster MessageId := (b.subscriptions.get s).sent

/-- Makes one change. -/
def apply (b : Books) : Edit → Books
  | .setStale m stale => { b with messages := b.messages.modify m ({ · with stale }) }
  | .setDisposable m disposable =>
      { b with messages := b.messages.modify m ({ · with disposable }) }
  | .setActive s active =>
      { b with subscriptions := b.subscriptions.modify s ({ · with active }) }
  | .schedule m c => { b with
      messages := b.messages.modify m fun r => { r with scheduled := r.scheduled.insert c } }
  | .unschedule m c => { b with
      messages := b.messages.modify m fun r => { r with scheduled := r.scheduled.erase c } }
  | .countFailure m c => { b with
      messages := b.messages.modify m fun r => { r with failures := r.failures.modify c (· + 1) } }
  | .track s id => { b with
      subscriptions := b.subscriptions.modify s fun r => { r with sent := r.sent.insert id } }
  | .untrack s id => { b with
      subscriptions := b.subscriptions.modify s fun r => { r with sent := r.sent.erase id } }

/-- Makes changes one after another. -/
def applyAll (b : Books) (edits : List Edit) : Books := edits.foldl apply b

theorem isStale_apply (b : Books) (e : Edit) (m : Message) :
    (b.apply e).isStale m ↔ e = .setStale m true ∨ b.isStale m ∧ e ≠ .setStale m false := by
  cases e <;> simp only [isStale, apply, Table.get_modify] <;> grind

theorem isDisposable_apply (b : Books) (e : Edit) (m : Message) :
    (b.apply e).isDisposable m ↔
      e = .setDisposable m true ∨ b.isDisposable m ∧ e ≠ .setDisposable m false := by
  cases e <;> simp only [isDisposable, apply, Table.get_modify] <;> grind

theorem isActive_apply (b : Books) (e : Edit) (s : Subscription) :
    (b.apply e).isActive s ↔ e = .setActive s true ∨ b.isActive s ∧ e ≠ .setActive s false := by
  cases e <;> simp only [isActive, apply, Table.get_modify] <;> grind

theorem mem_scheduled_apply (b : Books) (e : Edit) (m : Message) (c : ChannelId) :
    c ∈ (b.apply e).scheduled m ↔ e = .schedule m c ∨ c ∈ b.scheduled m ∧ e ≠ .unschedule m c := by
  cases e <;> simp only [scheduled, apply, Table.get_modify] <;>
    grind [Roster.mem_insert, Roster.mem_erase]

theorem mem_sent_apply (b : Books) (e : Edit) (s : Subscription) (id : MessageId) :
    id ∈ (b.apply e).sent s ↔ e = .track s id ∨ id ∈ b.sent s ∧ e ≠ .untrack s id := by
  cases e <;> simp only [sent, apply, Table.get_modify] <;>
    grind [Roster.mem_insert, Roster.mem_erase]

theorem failures_apply (b : Books) (e : Edit) (m : Message) (c : ChannelId) :
    (b.apply e).failures m c =
      if e = .countFailure m c then b.failures m c + 1 else b.failures m c := by
  cases e <;> simp only [failures, apply, Table.get_modify] <;> grind [Table.get_modify]

/-- The line that describes a subscription with its present state. -/
def describe (b : Books) (s : Subscription) : String :=
  s!"Subscription \x7b channel_id: ChannelId({s.channel.text}), active: {b.isActive s}, " ++
    s!"durable: {s.durable}, unacked: {(b.sent s).size} \x7d"

end Books

/-- A message goes in flight on a subscription. -/
def Edit.inFlight (m : Message) (s : Subscription) : List Edit :=
  [.schedule m s.channel, .track s m.id]

/-- A delivery that failed is taken back: the failure is counted, and the message is neither
scheduled for the channel nor in flight on the subscription any more. -/
def Edit.rollback (m : Message) (s : Subscription) : List Edit :=
  [.countFailure m s.channel, .unschedule m s.channel, .untrack s m.id]

end ShardedDelivery
