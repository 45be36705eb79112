import ShardedDelivery.Text.Hex

/-! # Writing JSON

The compact form. In strings only quotes, backslashes and control characters are escaped. -/

namespace ShardedDelivery.Json

/-- A character of a string. -/
def escape (c : Char) : List Char :=
  if c = '"' ∨ c = '\\' then ['\\', c]
  else if c = '\x08' then ['\\', 'b']
  else if c = '\x0c' then ['\\', 'f']
  else if c = '\n' then ['\\', 'n']
  else if c = '\r' then ['\\', 'r']
  else if c = '\t' then ['\\', 't']
  else if c < ' ' then '\\' :: 'u' :: Hex.digits 4 c.toNat
  else [c]

/-- A string. -/
def writeText (s : String) : String :=
  String.ofList ('"' :: s.toList.flatMap escape ++ ['"'])

/-- A number. -/
def writeWord (n : UInt64) : String := toString n.toNat

/-- An object with these members, whose values are written already. -/
def writeObject (members : List (String × String)) : String :=
  "\x7b" ++ ",".intercalate (members.map fun (key, value) => writeText key ++ ":" ++ value) ++
    "\x7d"

end ShardedDelivery.Json
