import ShardedDelivery.Json.Schema
import ShardedDelivery.Json.Writer
import ShardedDelivery.Message.Json
import ShardedDelivery.Store

/-! # Dead letters in JSON -/

namespace ShardedDelivery.DeadLetter

open Json

/-- A dead letter of which only some fields are given. -/
structure Partial where
  message : Option MessageId := none
  destination : Option String := none
  queue : Option String := none
  movedAt : Option UInt64 := none

namespace Partial

/-- A field that is needed. -/
def need {α : Type} (name : String) : Option α → Except Mismatch α
  | some a => .ok a
  | none => .error (.missingField name)

/-- The dead letter; the first field that is missing is named. -/
def complete (p : Partial) : Except Mismatch DeadLetter := do
  let message ← need "message_id" p.message
  let destination ← need "destination" p.destination
  let queue ← need "dead_letter_queue" p.queue
  let movedAt ← need "moved_at_secs" p.movedAt
  return { message, destination, queue, movedAt }

end Partial

/-- The fields, in order. -/
def fields : List (RecordField Partial) := [
  { name := "message_id"
    isGiven := (·.message.isSome)
    read := fun t p => return { p with message := some (← MessageId.read t) } },
  { name := "destination"
    isGiven := (·.destination.isSome)
    read := fun t p => return { p with destination := some (← t.readText) } },
  { name := "dead_letter_queue"
    isGiven := (·.queue.isSome)
    read := fun t p => return { p with queue := some (← t.readText) } },
  { name := "moved_at_secs"
    isGiven := (·.movedAt.isSome)
    read := fun t p => return { p with movedAt := some (← t.readWord "u64") } }]

/-- How a dead letter is read. Every field is needed. -/
def schema : Schema Partial DeadLetter where
  expected := "struct DeadLetterEntry"
  fields := fields
  start := {}
  ofMembers := Partial.complete
  ofItems count p :=
    if count < fields.length then
      .error (.wrongLength count "struct DeadLetterEntry with 4 elements")
    else p.complete

/-- Reads a dead letter. -/
def read (t : Tree) : Except Fault DeadLetter := schema.read t

/-- Writes a dead letter. -/
def write (d : DeadLetter) : String := writeObject [
  ("message_id", d.message.write),
  ("destination", writeText d.destination),
  ("dead_letter_queue", writeText d.queue),
  ("moved_at_secs", writeWord d.movedAt)]

end ShardedDelivery.DeadLetter
