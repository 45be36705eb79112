/-! # Hexadecimal digits

Digits are written in lower case at a fixed width and read in either case. -/

namespace ShardedDelivery.Hex

/-- The last `width` hexadecimal digits of a number, most significant first. -/
def digits : Nat → Nat → List Char
  | 0, _ => []
  | width + 1, n => digits width (n / 16) ++ [Nat.digitChar (n % 16)]

/-- The value of one digit. -/
def value? (c : Char) : Option Nat :=
  if '0' ≤ c ∧ c ≤ '9' then some (c.toNat - '0'.toNat)
  else if 'a' ≤ c ∧ c ≤ 'f' then some (c.toNat - 'a'.toNat + 10)
  else if 'A' ≤ c ∧ c ≤ 'F' then some (c.toNat - 'A'.toNat + 10)
  else none

/-- The number that the digits spell after `high`; anything but a digit is refused. -/
def numberFrom? (high : Nat) : List Char → Option Nat
  | [] => some high
  | c :: rest =>
      match value? c with
      | some v => numberFrom? (16 * high + v) rest
      | none => none

/-- The number that a list of digits spells. -/
def number? (cs : List Char) : Option Nat := numberFrom? 0 cs

theorem length_digits (width n : Nat) : (digits width n).length = width := by
  induction width generalizing n with
  | zero => rfl
  | succ width ih => simp [digits, ih]

theorem value?_digitChar (n : Nat) (h : n < 16) : value? (Nat.digitChar n) = some n := by
  have : ∀ m : Fin 16, value? (Nat.digitChar m) = some m.val := by decide
  exact this ⟨n, h⟩

theorem numberFrom?_append (high : Nat) (xs ys : List Char) :
    numberFrom? high (xs ++ ys) = (numberFrom? high xs).bind (numberFrom? · ys) := by
  induction xs generalizing high with
  | nil => rfl
  | cons x xs ih =>
      simp only [List.cons_append, numberFrom?]
      cases value? x with
      | none => rfl
      | some v => exact ih _

/-- Reading back a fixed-width writing gives the number modulo that width. -/
theorem numberFrom?_digits (high width n : Nat) :
    numberFrom? high (digits width n) =
      some (Nat.pow 16 width * high + n % Nat.pow 16 width) := by
  induction width generalizing n with
  | zero => simp [digits, numberFrom?, Nat.mod_one]
  | succ width ih =>
      have hpow : Nat.pow 16 (width + 1) = Nat.pow 16 width * 16 := rfl
      have hmod : n % Nat.pow 16 (width + 1) = 16 * (n / 16 % Nat.pow 16 width) + n % 16 := by
        rw [hpow, Nat.mul_comm, Nat.mod_mul]
        omega
      rw [digits, numberFrom?_append, ih]
      simp only [Option.bind_some, numberFrom?, value?_digitChar _ (Nat.mod_lt n (by decide))]
      rw [hmod, hpow, Nat.mul_add, Nat.add_assoc, ← Nat.mul_assoc, Nat.mul_comm 16]

/-- The bytes that pairs of digits spell. -/
def bytes? : List Char → Option (List UInt8)
  | [] => some []
  | [_] => none
  | high :: low :: rest => do
      let n ← number? [high, low]
      let tail ← bytes? rest
      return UInt8.ofNat n :: tail

/-- Two digits for each byte. -/
def ofBytes (bytes : List UInt8) : String :=
  String.ofList (bytes.flatMap fun b => digits 2 b.toNat)

end ShardedDelivery.Hex
