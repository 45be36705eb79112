import Mathlib.Data.List.Induction
import Mathlib.Data.Option.Basic
import ShardedDelivery.Proofs.Channel
import ShardedDelivery.Proofs.Json.Token

/-! # Bytes of channel identifiers

An identifier is 16 bytes, each of them two hexadecimal digits, and the digits tell it. -/

namespace ShardedDelivery

open Json

namespace Hex

variable {c : Char} {cs : List Char} {high n v : Nat} {values values' : List Nat}

/-- The number whose digits, after those of `high`, have these values. -/
def join (high : Nat) (values : List Nat) : Nat := values.foldl (fun n v => 16 * n + v) high

theorem join_append (high : Nat) (values values' : List Nat) :
    join high (values ++ values') = join (join high values) values' :=
  List.foldl_append

theorem join_concat (high : Nat) (values : List Nat) (v : Nat) :
    join high (values ++ [v]) = 16 * join high values + v := by
  simp [join]

theorem value?_eq_some_iff : value? c = some v ↔ HexDigit c v := by
  refine ⟨fun h => ?_, HexDigit.value?_eq⟩
  have hall : ∀ k : Fin 128, ∀ v ∈ value? (Char.ofNat k), v < 16 ∧
      (Char.ofNat k = v.digitChar ∨ Char.ofNat k = v.digitChar.toUpper) := by decide
  by_cases hc : c.toNat < 128
  · have hdigit := hall ⟨c.toNat, hc⟩ v
    simp only [Char.ofNat_toNat] at hdigit
    exact hdigit h
  · have hbeyond (last : Char) (hlast : last.toNat < 128) : ¬ c ≤ last := by
      intro hle
      exact hc (Nat.lt_of_le_of_lt (Char.le_def.mp hle) hlast)
    simp [value?, hbeyond '9' (by decide), hbeyond 'f' (by decide), hbeyond 'F' (by decide)] at h

/-- Digits of either case spell the number that their values make. -/
theorem numberFrom?_eq_some_iff :
    numberFrom? high cs = some n ↔
      ∃ values, List.Forall₂ HexDigit cs values ∧ join high values = n := by
  induction cs generalizing high with
  | nil => simp [numberFrom?, join]
  | cons c cs ih =>
      cases hc : value? c with
      | none =>
          have hdigit (v : Nat) : ¬ HexDigit c v := by simp [← value?_eq_some_iff, hc]
          simp [numberFrom?, hc, List.forall₂_cons_left_iff, hdigit]
      | some v =>
          have hdigit (u : Nat) : HexDigit c u ↔ v = u := by simp [← value?_eq_some_iff, hc]
          simp only [numberFrom?, hc, ih, List.forall₂_cons_left_iff, hdigit]
          constructor
          · rintro ⟨values, hvalues, rfl⟩
            exact ⟨v :: values, ⟨v, values, rfl, hvalues, rfl⟩, rfl⟩
          · rintro ⟨_, ⟨_, values, rfl, hvalues, rfl⟩, rfl⟩
            exact ⟨values, hvalues, rfl⟩

theorem lt_of_digits (h : List.Forall₂ HexDigit cs values) : ∀ v ∈ values, v < 16 := by
  induction h with
  | nil => nofun
  | cons hdigit _ ih => exact List.forall_mem_cons.mpr ⟨hdigit.1, ih⟩

theorem join_lt (hvalues : ∀ v ∈ values, v < 16) : join 0 values < 16 ^ values.length := by
  induction values using List.reverseRecOn with
  | nil => decide
  | append_singleton values v ih =>
      have hv : v < 16 := hvalues v (by simp)
      have hrest := ih fun u hu => hvalues u (by simp [hu])
      rw [join_concat, List.length_append, List.length_singleton, Nat.pow_succ]
      omega

/-- The digits that are written for a number are those of the values that make it. -/
theorem digits_join (hvalues : ∀ v ∈ values, v < 16) (high : Nat) :
    digits values.length (join high values) = values.map Nat.digitChar := by
  induction values using List.reverseRecOn with
  | nil => rfl
  | append_singleton values v ih =>
      have hv : v < 16 := hvalues v (by simp)
      have hrest := ih fun u hu => hvalues u (by simp [hu])
      rw [List.length_append, List.length_singleton, digits, join_concat,
        Nat.mul_add_div (by decide), Nat.div_eq_of_lt hv, Nat.add_zero, hrest, Nat.mul_add_mod,
        Nat.mod_eq_of_lt hv, List.map_append, List.map_singleton]

/-- Values are told by the number that they make. -/
theorem eq_of_join_eq (hvalues : ∀ v ∈ values, v < 16) (hvalues' : ∀ v ∈ values', v < 16)
    (hlength : values.length = values'.length) (h : join high values = join high values') :
    values = values' := by
  have hdigits : values.map Nat.digitChar = values'.map Nat.digitChar := by
    rw [← digits_join hvalues high, ← digits_join hvalues' high, hlength, h]
  have hread {vs : List Nat} (hvs : ∀ v ∈ vs, v < 16) :
      (vs.map Nat.digitChar).map value? = vs.map some := by
    rw [List.map_map]
    exact List.map_congr_left fun v hv => value?_digitChar v (hvs v hv)
  have hsome : values.map some = values'.map some := by
    rw [← hread hvalues, hdigits, hread hvalues']
  exact List.map_injective_iff.mpr (Option.some_injective Nat) hsome

end Hex

namespace ChannelId

/-- The last bytes of a word, the most significant first. -/
def lastBytes : Nat → UInt64 → List UInt8
  | 0, _ => []
  | count + 1, w => lastBytes count (w >>> 8) ++ [w.toUInt8]

/-- The 16 bytes of an identifier, the most significant first. -/
def bytes (c : ChannelId) : List UInt8 := lastBytes 8 c.hi ++ lastBytes 8 c.lo

/-- The values of two digits for each byte. -/
def nibbles (bs : List UInt8) : List Nat := bs.flatMap fun b => [b.toNat / 16, b.toNat % 16]

theorem length_lastBytes (count : Nat) (w : UInt64) : (lastBytes count w).length = count := by
  induction count generalizing w with
  | zero => rfl
  | succ count ih => simp [lastBytes, ih]

theorem length_bytes (c : ChannelId) : c.bytes.length = 16 := by
  simp [bytes, length_lastBytes]

@[simp] theorem nibbles_append (bs bs' : List UInt8) :
    nibbles (bs ++ bs') = nibbles bs ++ nibbles bs' :=
  List.flatMap_append

theorem length_nibbles (bs : List UInt8) : (nibbles bs).length = 2 * bs.length := by
  simp [nibbles, List.length_flatMap, Nat.mul_comm]

theorem nibbles_lt (bs : List UInt8) : ∀ v ∈ nibbles bs, v < 16 := by
  intro v hv
  obtain ⟨b, -, hv⟩ := List.mem_flatMap.mp hv
  have hb := b.toNat_lt
  simp only [List.mem_cons, List.not_mem_nil, or_false] at hv
  omega

/-- The digits of the last bytes make the word, as far as it is covered. -/
theorem join_lastBytes (high count : Nat) (w : UInt64) :
    Hex.join high (nibbles (lastBytes count w)) =
      256 ^ count * high + w.toNat % 256 ^ count := by
  induction count generalizing w with
  | zero => simp [lastBytes, nibbles, Hex.join, Nat.mod_one]
  | succ count ih =>
      have hshift : (w >>> 8).toNat = w.toNat / 256 := by
        rw [UInt64.toNat_shiftRight, Nat.shiftRight_eq_div_pow]
        rfl
      have hlast (n : Nat) : Hex.join n (nibbles [w.toUInt8]) = 256 * n + w.toNat % 256 := by
        simp only [nibbles, List.flatMap_cons, List.flatMap_nil, Hex.join, List.append_nil,
          List.foldl_cons, List.foldl_nil, UInt64.toNat_toUInt8]
        omega
      have hmod : w.toNat % (256 * 256 ^ count) =
          w.toNat % 256 + 256 * (w.toNat / 256 % 256 ^ count) := Nat.mod_mul
      rw [lastBytes, nibbles_append, Hex.join_append, ih, hlast, hshift, Nat.pow_succ',
        hmod, Nat.mul_add, ← Nat.mul_assoc]
      omega

/-- The digits of its bytes make the identifier. -/
theorem join_bytes (c : ChannelId) : Hex.join 0 (nibbles c.bytes) = c.toNat := by
  have hhi := c.hi.toNat_lt
  have hlo := c.lo.toNat_lt
  rw [bytes, nibbles_append, Hex.join_append, join_lastBytes, join_lastBytes, toNat,
    Nat.shiftLeft_eq]
  omega

theorem toNat_ofNat {n : Nat} (h : n < 2 ^ 128) : (ofNat n).toNat = n := by
  rw [ofNat, toNat, Nat.shiftLeft_eq, UInt64.toNat_ofNat', UInt64.toNat_ofNat',
    Nat.shiftRight_eq_div_pow]
  omega

end ChannelId

end ShardedDelivery
