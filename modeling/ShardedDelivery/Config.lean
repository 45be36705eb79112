import ShardedDelivery.Store

/-! # Configuration of a pool -/

namespace ShardedDelivery

/-- The number of handlers, the places of the ring, and the dead letter queue. A pool has at
least one handler and one place. -/
structure Config where
  handlers : UInt64
  ringSize : UInt64
  queue : String
  handlers_pos : 0 < handlers
  ringSize_pos : 0 < ringSize

namespace Config

/-- The places of a ring unless a number is given. -/
def defaultRingSize : UInt64 := 1024

/-- One in place of zero. -/
def positive (n : UInt64) : UInt64 := if n = 0 then 1 else n

theorem positive_pos (n : UInt64) : 0 < positive n := by
  unfold positive
  split
  · decide
  · next h => exact UInt64.pos_iff_ne_zero.mpr h

/-- The configuration with these values, where none is one. -/
def normalize (handlers ringSize : UInt64) (queue : String) : Config where
  handlers := positive handlers
  ringSize := positive ringSize
  queue
  handlers_pos := positive_pos handlers
  ringSize_pos := positive_pos ringSize

/-- The configuration where nothing is given, on a machine with this many processors. -/
def default (processors : UInt64) : Config :=
  normalize processors defaultRingSize DeadLetter.defaultQueue

end Config

end ShardedDelivery
