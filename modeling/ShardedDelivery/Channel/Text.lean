import ShardedDelivery.Channel.Basic
import ShardedDelivery.Text.Hex

/-! # Channel identifiers as text

The written form is the hyphenated one in lower case. Four forms are read: bare digits, the
hyphenated form, the hyphenated form in braces, and the hyphenated form as a name in the
`urn:uuid:` scheme. -/

namespace ShardedDelivery.ChannelId

/-- Digits of the five groups of the hyphenated form. -/
def groups : List Nat := [8, 4, 4, 4, 12]

/-- The identifier as one 128-bit number. -/
def toNat (c : ChannelId) : Nat := c.hi.toNat <<< 64 + c.lo.toNat

/-- The identifier with these 128 low bits. -/
def ofNat (n : Nat) : ChannelId := ⟨UInt64.ofNat (n >>> 64), UInt64.ofNat n⟩

/-- Cuts the digits into groups with a hyphen between neighbours. -/
def hyphenate : List Nat → List Char → List Char
  | [], _ => []
  | [width], cs => cs.take width
  | width :: widths, cs => cs.take width ++ '-' :: hyphenate widths (cs.drop width)

/-- Undoes `hyphenate`; every group must have its width and every hyphen its place. -/
def unhyphenate? : List Nat → List Char → Option (List Char)
  | [], cs => if cs.isEmpty then some [] else none
  | [width], cs => if cs.length = width then some cs else none
  | width :: widths, cs =>
      match cs.drop width with
      | '-' :: rest => (unhyphenate? widths rest).map (cs.take width ++ ·)
      | _ => none

/-- The hyphenated form. -/
def chars (c : ChannelId) : List Char := hyphenate groups (Hex.digits 32 c.toNat)

/-- The hyphenated form. -/
def text (c : ChannelId) : String := String.ofList c.chars

instance : ToString ChannelId := ⟨text⟩

/-- Drops the name scheme, whose letters may be of either case. -/
def dropScheme? (cs : List Char) : Option (List Char) :=
  if (cs.take 9).map Char.toLower = "urn:uuid:".toList then some (cs.drop 9) else none

/-- Drops one pair of enclosing braces. -/
def dropBraces? (cs : List Char) : Option (List Char) :=
  match cs with
  | '\x7b' :: rest => if rest.getLast? = some '\x7d' then some rest.dropLast else none
  | _ => none

/-- The 32 digits of a text in one of the four forms, whatever characters they are. -/
def digitsOf? (cs : List Char) : Option (List Char) :=
  if cs.length = 32 then some cs
  else if cs.length = 36 then unhyphenate? groups cs
  else (dropBraces? cs <|> dropScheme? cs).bind (unhyphenate? groups)

/-- Reads one of the four forms. -/
def ofChars? (cs : List Char) : Option ChannelId :=
  ((digitsOf? cs).bind Hex.number?).map ofNat

/-- Reads one of the four forms. -/
def ofText? (s : String) : Option ChannelId := ofChars? s.toList

end ShardedDelivery.ChannelId
