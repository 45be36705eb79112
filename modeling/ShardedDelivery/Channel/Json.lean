import ShardedDelivery.Channel.Text
import ShardedDelivery.Json.Reader
import ShardedDelivery.Json.Writer

/-! # Channel identifiers in JSON -/

namespace ShardedDelivery.ChannelId

open Json

/-- Reads a string in one of the forms of an identifier. -/
def read (t : Tree) : Except Fault ChannelId := do
  match ← t.found with
  | .text s =>
      match ofText? s with
      | some c => return c
      | none => throw (.mismatch .notChannel)
  | _ => throw (.mismatch .notChannel)

/-- Writes the identifier as a string. -/
def write (c : ChannelId) : String := writeText c.text

end ShardedDelivery.ChannelId
