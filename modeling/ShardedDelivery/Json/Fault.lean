import ShardedDelivery.Json.Tree
import ShardedDelivery.Text.Quoted

/-! # Why a text cannot be read

Either the text is not well formed, or what stands in it does not fit what is read. -/

namespace ShardedDelivery.Json

/-- What stands where something else is expected. -/
inductive Found where
  | null
  | bool (value : Bool)
  | integer (value : Int)
  | fraction
  | text (s : String)
  | sequence
  | map
deriving DecidableEq, Repr

def Found.describe : Found → String
  | null => "null"
  | bool value => s!"boolean `{value}`"
  | integer value => s!"integer `{value}`"
  | fraction => "floating point"
  | text s => "string " ++ Quoted.quote s
  | sequence => "sequence"
  | map => "map"

/-- How what stands in a text does not fit. -/
inductive Mismatch where
  | wrongType (found : Found) (expected : String)
  | wrongValue (found : Found) (expected : String)
  | missingField (name : String)
  | duplicateField (name : String)
  | unknownVariant (name : String) (known : List String)
  | wrongLength (length : Nat) (expected : String)
  | notChannel
deriving DecidableEq, Repr

def Mismatch.message : Mismatch → String
  | wrongType found expected => s!"invalid type: {found.describe}, expected {expected}"
  | wrongValue found expected => s!"invalid value: {found.describe}, expected {expected}"
  | missingField name => s!"missing field `{name}`"
  | duplicateField name => s!"duplicate field `{name}`"
  | unknownVariant name known =>
      s!"unknown variant `{name}`, expected " ++ " or ".intercalate (known.map fun k => s!"`{k}`")
  | wrongLength length expected => s!"invalid length {length}, expected {expected}"
  | notChannel => "not a UUID"

/-- Why a text cannot be read. -/
inductive Fault where
  | flaw (f : Flaw)
  | mismatch (m : Mismatch)
deriving DecidableEq, Repr

namespace Fault

/-- The text is not well formed. -/
def malformed : Fault := .flaw .malformed

/-- The message of a mismatch. -/
def message? : Fault → Option String
  | flaw _ => none
  | mismatch m => some m.message

end Fault

end ShardedDelivery.Json
