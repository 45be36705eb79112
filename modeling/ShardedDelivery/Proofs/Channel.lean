import Mathlib.Algebra.GroupWithZero.Nat
import ShardedDelivery.Channel.Text

/-! # Channel identifiers as text

The written form is read back. -/

namespace ShardedDelivery.ChannelId

theorem length_hyphenate {widths : List Nat} {cs : List Char} (h : cs.length = widths.sum) :
    (hyphenate widths cs).length = widths.sum + (widths.length - 1) := by
  fun_induction hyphenate widths cs with
  | case1 cs => rfl
  | case2 width cs =>
      simp only [List.length_take, List.sum_cons, List.sum_nil, List.length_singleton] at h ⊢
      omega
  | case3 width widths cs hne ih =>
      obtain ⟨next, widths, rfl⟩ := List.exists_cons_of_ne_nil hne
      simp only [List.sum_cons] at h
      have hrest := ih (by simp [h])
      simp only [List.sum_cons, List.length_cons] at hrest
      simp [hrest, h]
      omega

/-- Hyphens that are put in can be taken out again. -/
theorem unhyphenate?_hyphenate {widths : List Nat} {cs : List Char} (h : cs.length = widths.sum) :
    unhyphenate? widths (hyphenate widths cs) = some cs := by
  fun_induction hyphenate widths cs with
  | case1 cs => simp [unhyphenate?, List.length_eq_zero_iff.mp h]
  | case2 width cs =>
      have hwidth : cs.length = width := by simpa using h
      rw [List.take_of_length_le (Nat.le_of_eq hwidth), unhyphenate?, if_pos hwidth]
  | case3 width widths cs hne ih =>
      obtain ⟨next, widths, rfl⟩ := List.exists_cons_of_ne_nil hne
      have hlength : (cs.take width).length = width := by
        rw [List.length_take, h, List.sum_cons]
        omega
      have hrest := ih (by simp [h])
      rw [unhyphenate?, List.drop_left' hlength, List.take_left' hlength]
      · simp [hrest]
      · simp

/-- The 128 bits tell the identifier. -/
theorem ofNat_toNat (c : ChannelId) : ofNat c.toNat = c := by
  have hlo := c.lo.toNat_lt
  have hshift : c.toNat >>> 64 = c.hi.toNat := by
    rw [toNat, Nat.shiftLeft_eq, Nat.shiftRight_eq_div_pow]
    omega
  have hlow : UInt64.ofNat c.toNat = c.lo := by
    rw [← UInt64.toNat_inj, UInt64.toNat_ofNat', toNat, Nat.shiftLeft_eq]
    omega
  rw [ofNat, hshift, hlow, UInt64.ofNat_toNat]

theorem toNat_lt (c : ChannelId) : c.toNat < Nat.pow 16 32 := by
  have hhi := c.hi.toNat_lt
  have hlo := c.lo.toNat_lt
  rw [toNat, Nat.shiftLeft_eq]
  simp only [Nat.pow_eq, Nat.reducePow]
  omega

/-- The written form is read as the identifier. -/
theorem ofText?_text (c : ChannelId) : ofText? c.text = some c := by
  have hlength : (Hex.digits 32 c.toNat).length = groups.sum := Hex.length_digits 32 c.toNat
  have hchars : c.text.toList = hyphenate groups (Hex.digits 32 c.toNat) := String.toList_ofList
  have hdigits : digitsOf? c.text.toList = some (Hex.digits 32 c.toNat) := by
    have hlength' : c.text.toList.length = 36 := by rw [hchars, length_hyphenate hlength]; rfl
    rw [digitsOf?, hlength', if_neg (by decide), if_pos rfl, hchars, unhyphenate?_hyphenate hlength]
  have hnumber : Hex.number? (Hex.digits 32 c.toNat) = some c.toNat := by
    rw [Hex.number?, Hex.numberFrom?_digits, Nat.mul_zero, Nat.zero_add,
      Nat.mod_eq_of_lt c.toNat_lt]
  rw [ofText?, ofChars?, hdigits, Option.bind_some, hnumber, Option.map_some, ofNat_toNat]

end ShardedDelivery.ChannelId
