import ShardedDelivery.Config
import ShardedDelivery.Json.Schema

/-! # Configurations in JSON

A text gives some settings, and the others keep their defaults. -/

namespace ShardedDelivery

open Json

/-- The settings that a text gives. -/
structure Settings where
  handlers : Option UInt64 := none
  ringSize : Option UInt64 := none
  queue : Option String := none
deriving DecidableEq, Repr

namespace Settings

/-- The settings, in order. -/
def fields : List (RecordField Settings) := [
  { name := "handler_count"
    isGiven := (·.handlers.isSome)
    read := fun t s => return { s with handlers := some (← t.readWord "usize") } },
  { name := "ring_size"
    isGiven := (·.ringSize.isSome)
    read := fun t s => return { s with ringSize := some (← t.readWord "usize") } },
  { name := "dead_letter_queue"
    isGiven := (·.queue.isSome)
    read := fun t s => return { s with queue := some (← t.readText) } }]

/-- How settings are read. None is needed. -/
def schema : Schema Settings Settings where
  expected := "struct DispatcherConfig"
  fields := fields
  start := {}
  ofMembers := .ok
  ofItems _ := .ok

/-- Reads the settings that a text gives. -/
def parse (text : String) : Except Fault Settings := read schema.read text

/-- The configuration with these settings, on a machine with this many processors. -/
def resolve (s : Settings) (processors : UInt64) : Config :=
  .normalize (s.handlers.getD processors) (s.ringSize.getD Config.defaultRingSize)
    (s.queue.getD DeadLetter.defaultQueue)

/-- What is said of a text that gives no settings. -/
def describe (f : Fault) : String :=
  match f.message? with
  | none => "invalid delivery config"
  | some message => "invalid delivery config: " ++ message

end Settings

/-- Reads a configuration. -/
def Config.parse (processors : UInt64) (text : String) : Except Fault Config :=
  (Settings.parse text).map (·.resolve processors)

end ShardedDelivery
