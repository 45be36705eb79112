/-! # Channels

A channel is named by 128 bits. Its fold to 32 bits decides which shard serves it. -/

namespace ShardedDelivery

/-- A channel's identifier, as its upper and its lower 64 bits. -/
structure ChannelId where
  hi : UInt64
  lo : UInt64
deriving DecidableEq, Repr, Inhabited

/-- The shard of a hash among `count` shards: its absolute value modulo the count.
No shards at all count as one. -/
def shard (hash : Int32) (count : Nat) : Nat :=
  hash.toInt.natAbs % max count 1

namespace ChannelId

/-- The exclusive or of the identifier's four 32-bit groups, read in two's complement. -/
def fold (c : ChannelId) : Int32 :=
  let mixed := c.hi ^^^ c.lo
  ((mixed >>> 32).toUInt32 ^^^ mixed.toUInt32).toInt32

/-- The shard that serves the channel. -/
def shard (c : ChannelId) (count : Nat) : Nat :=
  ShardedDelivery.shard c.fold count

end ChannelId

theorem shard_lt (hash : Int32) (count : Nat) : shard hash count < max count 1 :=
  Nat.mod_lt _ (by omega)

theorem ChannelId.shard_lt_of_pos (c : ChannelId) {count : Nat} (h : 0 < count) :
    c.shard count < count := by
  have hlt := ShardedDelivery.shard_lt c.fold count
  rwa [Nat.max_eq_left h] at hlt

end ShardedDelivery
