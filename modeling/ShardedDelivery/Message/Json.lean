import ShardedDelivery.Json.Reader
import ShardedDelivery.Json.Writer
import ShardedDelivery.Message

/-! # Message identifiers and kinds in JSON

An identifier is a bare number. A kind is its name as a string, or an object with its name as the
only key and null as the value. -/

namespace ShardedDelivery

open Json

namespace MessageId

/-- Reads an identifier. -/
def read (t : Tree) : Except Fault MessageId := MessageId.mk <$> t.readWord "u64"

/-- Writes an identifier. -/
def write (id : MessageId) : String := writeWord id.value

end MessageId

namespace MessageKind

/-- Every kind. -/
def all : List MessageKind := [.queue, .topic]

/-- The kind of this name. -/
def ofName (name : String) : Except Fault MessageKind :=
  match all.find? (·.name = name) with
  | some kind => .ok kind
  | none => .error (.mismatch (.unknownVariant name (all.map MessageKind.name)))

/-- Reads the end of an object that names a kind, after its only member if there is one. -/
def readEnd : Closing → Except Fault Unit
  | .closed => .ok ()
  | .stopped flaw => .error (.flaw flaw)
  | .afterKey key flaw => do
      let _ ← ofName (← key.read)
      throw (.flaw flaw)
  | .notKey token => .error (.flaw (textFlaw token))

/-- Reads a kind. -/
def read : Tree → Except Fault MessageKind
  | .text l => do ofName (← l.read)
  | .object [] closing => do
      readEnd closing
      throw .malformed
  | .object ((key, value) :: rest) closing => do
      let kind ← ofName (← key.read)
      value.readUnit
      match rest, closing with
      | [], .closed => return kind
      | [], .stopped flaw => throw (.flaw flaw)
      | _, _ => throw .malformed
  | .broken token => .error (.flaw (textFlaw token))
  | _ => .error .malformed

/-- Writes a kind. -/
def write (kind : MessageKind) : String := writeText kind.name

end MessageKind

end ShardedDelivery
