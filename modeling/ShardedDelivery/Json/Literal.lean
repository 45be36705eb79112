/-! # JSON string literals

A literal is kept as pieces: characters, and 16-bit units written as `\u` escapes. Two such units
may spell one character; a unit of such a pair that stands alone cannot be read. -/

namespace ShardedDelivery.Json

/-- A piece of a string literal. -/
inductive Piece where
  | plain (c : Char)
  | unit (value : Nat)
deriving DecidableEq, Repr

/-- A string literal, without its quotes. -/
abbrev Literal := List Piece

namespace Literal

/-- The first half of a pair. -/
def isLead (unit : Nat) : Bool := 0xD800 ≤ unit && unit < 0xDC00

/-- The second half of a pair. -/
def isTrail (unit : Nat) : Bool := 0xDC00 ≤ unit && unit < 0xE000

/-- The character that a pair spells. -/
def ofPair (lead trail : Nat) : Char :=
  Char.ofNat (0x10000 + (lead - 0xD800) * 0x400 + (trail - 0xDC00))

/-- Reads the pieces so far. None if half a pair stands alone; otherwise the characters, and
whether the last piece is the first half of a pair that may still be completed. -/
def readSoFar : Literal → Option (List Char × Bool)
  | [] => some ([], false)
  | .plain c :: rest => (readSoFar rest).map fun (cs, open_) => (c :: cs, open_)
  | [.unit u] =>
      if isLead u then some ([], true)
      else if isTrail u then none
      else some ([Char.ofNat u], false)
  | .unit u :: .plain c :: rest =>
      if isLead u || isTrail u then none
      else (readSoFar (.plain c :: rest)).map fun (cs, open_) => (Char.ofNat u :: cs, open_)
  | .unit u :: .unit v :: rest =>
      if isLead u then
        if isTrail v then (readSoFar rest).map fun (cs, open_) => (ofPair u v :: cs, open_)
        else none
      else if isTrail u then none
      else (readSoFar (.unit v :: rest)).map fun (cs, open_) => (Char.ofNat u :: cs, open_)

/-- Reads a whole literal. -/
def read? (l : Literal) : Option String :=
  match readSoFar l with
  | some (cs, false) => some (String.ofList cs)
  | _ => none

end Literal

end ShardedDelivery.Json
