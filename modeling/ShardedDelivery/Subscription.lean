import ShardedDelivery.Channel.Basic

/-! # Subscriptions

What a subscription is for good: its channel and whether it is durable. Whether it is active and
what it has in flight is kept in the books. -/

namespace ShardedDelivery

/-- A subscription. Several may share a channel; their keys tell them apart. -/
structure Subscription where
  key : Nat
  channel : ChannelId
  durable : Bool
deriving DecidableEq, Repr, Inhabited

end ShardedDelivery
