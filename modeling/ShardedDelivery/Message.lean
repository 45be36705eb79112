import ShardedDelivery.Text.Hex

/-! # Messages

What a message is for good: its identifier, where it goes, and its kind. Its flags and its
delivery state change, and are kept in the books. -/

namespace ShardedDelivery

/-- The identifier that a message carries. -/
structure MessageId where
  value : UInt64
deriving DecidableEq, Repr, Inhabited

instance : ToString MessageId := ⟨fun id => toString id.value⟩

/-- A queue message goes to one consumer, a topic message to every subscriber. -/
inductive MessageKind where
  | queue
  | topic
deriving DecidableEq, Repr, Inhabited

/-- The name of a kind in texts. -/
def MessageKind.name : MessageKind → String
  | .queue => "Queue"
  | .topic => "Topic"

/-- A message. Two messages with the same identifier are told apart by their key. -/
structure Message where
  key : Nat
  id : MessageId
  destination : String
  kind : MessageKind
deriving DecidableEq, Repr, Inhabited

namespace Message

def isTopic (m : Message) : Bool := m.kind = .topic

end Message

/-- The payload of a delivery, which nothing on the way looks into. -/
structure Content where
  bytes : List UInt8 := []
deriving DecidableEq, Repr, Inhabited

namespace Content

def size (c : Content) : Nat := c.bytes.length

def isEmpty (c : Content) : Bool := c.bytes.isEmpty

/-- The bytes of a text. -/
def ofText (s : String) : Content := ⟨s.toUTF8.toList⟩

/-- The bytes in lower-case hexadecimal. -/
def hex (c : Content) : String := Hex.ofBytes c.bytes

end Content

end ShardedDelivery
