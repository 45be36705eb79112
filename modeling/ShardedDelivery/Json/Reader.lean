import ShardedDelivery.Json.Fault

/-! # Reading values

Readers take a tree to a value of a type. They read from the left and report the first problem. -/

namespace ShardedDelivery.Json

/-- What a number is, unless it is too large for one. -/
def Numeral.found (n : Numeral) : Except Fault Found :=
  match n.integer? with
  | some i => .ok (.integer i)
  | none => if n.isTooLarge then .error .malformed else .ok .fraction

/-- Reads a literal. -/
def Literal.read (l : Literal) : Except Fault String :=
  match l.read? with
  | some s => .ok s
  | none => .error .malformed

namespace Tree

/-- What a tree is where a value is looked at before it is read. -/
def found : Tree → Except Fault Found
  | null => .ok .null
  | bool b => .ok (.bool b)
  | number n => n.found
  | text l => Found.text <$> l.read
  | array .. => .ok .sequence
  | object .. => .ok .map
  | broken token => .error (.flaw (readFlaw token))

/-- Refuses a value of another type than the expected one. -/
def refuse {α : Type} (t : Tree) (expected : String) : Except Fault α := do
  throw (.mismatch (.wrongType (← t.found) expected))

/-- Skips a value. -/
def skip (t : Tree) : Except Fault Unit :=
  match t.skipFlaw? with
  | none => .ok ()
  | some flaw => .error (.flaw flaw)

/-- Reads a 64-bit number without sign. -/
def readWord (expected : String) (t : Tree) : Except Fault UInt64 :=
  match t with
  | number n => do
      match ← n.found with
      | .integer i =>
          if i < 0 then throw (.mismatch (.wrongValue (.integer i) expected))
          else return UInt64.ofNat i.toNat
      | found => throw (.mismatch (.wrongType found expected))
  | _ => t.refuse expected

/-- Reads a string. -/
def readText (t : Tree) : Except Fault String :=
  match t with
  | text l => l.read
  | _ => t.refuse "a string"

/-- Reads null. -/
def readUnit (t : Tree) : Except Fault Unit :=
  match t with
  | null => .ok ()
  | _ => t.refuse "unit"

end Tree

/-- Reads a whole text; nothing may follow the value. -/
def read {α : Type} (reader : Tree → Except Fault α) (text : String) : Except Fault α := do
  let (tree, rest) := parse text
  let a ← reader tree
  if rest.isEmpty then return a else throw .malformed

end ShardedDelivery.Json
