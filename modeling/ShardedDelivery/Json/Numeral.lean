/-! # JSON numbers

A numeral is kept as it is spelled. It denotes an integer only without fraction and exponent and
within 64 bits; any other is a fraction, and one beyond the range of double precision is refused. -/

namespace ShardedDelivery.Json

/-- A number as it is spelled. The digits after the point are none if there is no point. -/
structure Numeral where
  negative : Bool
  whole : List Char
  fraction : List Char
  exponent : Option (Bool × List Char)
deriving DecidableEq, Repr

/-- Rounds to 53 binary digits, a tie to the even neighbour. -/
def roundDouble (n : Nat) : Nat :=
  let shift := n.log2 - 52
  let unit := 1 <<< shift
  let low := n / unit * unit
  let rest := n - low
  if 2 * rest > unit ∨ 2 * rest = unit ∧ n / unit % 2 = 1 then low + unit else low

/-- The least number that double precision rounds to infinity. -/
def doubleLimit : Nat := 1 <<< 1024 - 1 <<< 970

namespace Numeral

/-- The number that decimal digits spell. -/
def valueOf (digits : List Char) : Nat := Nat.ofDigitChars 10 digits 0

/-- Digits are taken into the significand while it fits 64 bits. Gives the significand and the
digits that did not fit. -/
def fill (significand : Nat) : List Char → Nat × List Char
  | [] => (significand, [])
  | c :: rest =>
      let next := Nat.ofDigitChars 10 [c] significand
      if next < 1 <<< 64 then fill next rest else (significand, c :: rest)

/-- The significand and its power of ten. Whole digits beyond 64 bits count as zeros, and digits
of the fraction beyond that are dropped. -/
def scaled (n : Numeral) : Nat × Int :=
  let (significand, zeros) := fill 0 n.whole
  let (significand, dropped) := fill significand n.fraction
  let places := n.fraction.length - dropped.length
  let exponent : Int := match n.exponent with
    | none => 0
    | some (negative, digits) => if negative then -(valueOf digits : Int) else valueOf digits
  (significand, exponent + zeros.length - places)

/-- Whether the magnitude is beyond double precision, rounding factor by factor. -/
def isTooLarge (n : Numeral) : Bool :=
  let (significand, power) := n.scaled
  significand ≠ 0 && decide (0 ≤ power) &&
    (decide (308 < power) ||
      decide (doubleLimit ≤
        roundDouble (roundDouble significand * roundDouble (Nat.pow 10 power.toNat))))

/-- The integer that a numeral denotes. -/
def integer? (n : Numeral) : Option Int :=
  let value := valueOf n.whole
  if n.fraction.isEmpty ∧ n.exponent = none then
    if n.negative then
      if 0 < value ∧ value ≤ 1 <<< 63 then some (-(value : Int)) else none
    else if value < 1 <<< 64 then some value else none
  else none

end Numeral

end ShardedDelivery.Json
