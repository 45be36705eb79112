import ShardedDelivery.Json.Reader

/-! # Reading records

A record is read from an object, with its members in any order and others among them, or from an
array of the fields in order. Fields are gathered one by one in a partial record. -/

namespace ShardedDelivery.Json

/-- A field of a partial record `ρ`. -/
structure RecordField (ρ : Type) where
  name : String
  isGiven : ρ → Bool
  read : Tree → ρ → Except Fault ρ

/-- How a record `α` is read by way of a partial record `ρ`. -/
structure Schema (ρ α : Type) where
  expected : String
  fields : List (RecordField ρ)
  start : ρ
  /-- The record, when the object ends. -/
  ofMembers : ρ → Except Mismatch α
  /-- The record, when an array ends that gives this many fields. -/
  ofItems : Nat → ρ → Except Mismatch α

namespace Schema

variable {ρ α : Type}

/-- The field of this name, if there is one and it may be given now. -/
def field? (fields : List (RecordField ρ)) (key : Literal) (r : ρ) :
    Except Fault (Option (RecordField ρ)) := do
  let name ← key.read
  match fields.find? (·.name = name) with
  | none => return none
  | some f => if f.isGiven r then throw (.mismatch (.duplicateField f.name)) else return some f

/-- Reads the members of an object. -/
def readMembers (fields : List (RecordField ρ)) : List (Literal × Tree) → ρ → Except Fault ρ
  | [], r => .ok r
  | (key, value) :: rest, r => do
      match ← field? fields key r with
      | some f => readMembers fields rest (← f.read value r)
      | none =>
          value.skip
          readMembers fields rest r

/-- Reads the end of an object. -/
def readEnd (fields : List (RecordField ρ)) (r : ρ) : Closing → Except Fault Unit
  | .closed => .ok ()
  | .stopped flaw => .error (.flaw flaw)
  | .afterKey key flaw => do
      let _ ← field? fields key r
      throw (.flaw flaw)
  | .notKey token => .error (.flaw (textFlaw token))

/-- Reads the items of an array, as the fields in order, and how many there are. -/
def readItems : List (RecordField ρ) → List Tree → ρ → Except Fault (Nat × ρ)
  | [], [], r => .ok (0, r)
  | [], _ :: _, _ => .error .malformed
  | _ :: _, [], r => .ok (0, r)
  | f :: fields, item :: items, r => do
      let (count, r) ← readItems fields items (← f.read item r)
      return (count + 1, r)

/-- Reads a record. -/
def read (s : Schema ρ α) : Tree → Except Fault α
  | .object members closing => do
      let r ← readMembers s.fields members s.start
      readEnd s.fields r closing
      (s.ofMembers r).mapError .mismatch
  | .array items closing => do
      let (count, r) ← readItems s.fields items s.start
      readEnd s.fields r closing
      (s.ofItems count r).mapError .mismatch
  | t => t.refuse s.expected

end Schema

end ShardedDelivery.Json
