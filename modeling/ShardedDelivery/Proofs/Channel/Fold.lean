import Mathlib.Algebra.Order.Group.Int
import Mathlib.Data.List.Flatten
import Mathlib.Data.List.Perm.Basic
import Mathlib.Data.Nat.Digits.Defs
import ShardedDelivery.Proofs.Channel.Bytes

/-! # Folds and shards

An identifier's bytes are four groups of 32 bits. Their exclusive or, in two's complement, is the
fold, whatever the order of the groups. Its absolute value modulo the count of shards is the shard,
and machine words come to the same: they hold the absolute value of the lowest hash as well, and
no shards at all are no division by zero. -/

namespace ShardedDelivery

/-! ## Bytes and numbers -/

section Bytes

variable {bs bs' : List UInt8}

/-- The number that bytes spell, the most significant first. -/
def bigEndian (bs : List UInt8) : Nat := Nat.ofDigits 256 (bs.map UInt8.toNat).reverse

theorem bigEndian_append (bs bs' : List UInt8) :
    bigEndian (bs ++ bs') = 256 ^ bs'.length * bigEndian bs + bigEndian bs' := by
  rw [bigEndian, List.map_append, List.reverse_append, Nat.ofDigits_append, List.length_reverse,
    List.length_map, Nat.add_comm]
  rfl

theorem byteValues_lt (bs : List UInt8) : ∀ n ∈ (bs.map UInt8.toNat).reverse, n < 256 := by
  intro n hn
  obtain ⟨b, -, rfl⟩ := List.mem_map.mp (List.mem_reverse.mp hn)
  exact b.toNat_lt

theorem bigEndian_lt (bs : List UInt8) : bigEndian bs < 256 ^ bs.length := by
  have h := Nat.ofDigits_lt_base_pow_length (by decide) (byteValues_lt bs)
  rwa [List.length_reverse, List.length_map] at h

/-- Bytes are told by their number, once it is known how many they are. -/
theorem eq_of_bigEndian_eq (hlength : bs.length = bs'.length) (h : bigEndian bs = bigEndian bs') :
    bs = bs' := by
  have hdigits := Nat.ofDigits_inj_of_len_eq (by decide) (by simp [hlength]) (byteValues_lt bs)
    (byteValues_lt bs') h
  have hinj : Function.Injective UInt8.toNat := fun _ _ => UInt8.toNat_inj.mp
  exact hinj.list_map (List.reverse_injective hdigits)

end Bytes

/-- 32 bits as a number in two's complement. -/
def twosComplement (n : Nat) : Int := if n < 2 ^ 31 then n else n - 2 ^ 32

theorem toInt_toInt32 (w : UInt32) : w.toInt32.toInt = twosComplement w.toNat := by
  have h := BitVec.toInt_eq_toNat_cond w.toBitVec
  rw [← Int32.toInt_toBitVec, UInt32.toBitVec_toInt32, h, twosComplement]
  change (if 2 * w.toNat < 2 ^ 32 then (w.toNat : Int) else w.toNat - (2 ^ 32 : Nat)) = _
  split <;> split <;> omega

/-- The exclusive or of the numbers that groups of bytes spell. -/
def combined (groups : List (List UInt8)) : Nat := (groups.map bigEndian).foldr (· ^^^ ·) 0

theorem combined_perm {groups groups' : List (List UInt8)} (h : groups.Perm groups') :
    combined groups = combined groups' :=
  (h.map bigEndian).foldr_op_eq

/-! ## Shards in machine words -/

/-- A word moved to the right, by less than its width. -/
def shiftRight? (w n : UInt64) : Option UInt64 := if n < 64 then some (w >>> n) else none

/-- The remainder of a division, of which there is none by zero. -/
def remainder? (n d : UInt64) : Option UInt64 := if d = 0 then none else some (n % d)

/-- The shard of a hash in machine words. The absolute value is a word without a sign. -/
def shardWord? (hash : Int32) (count : UInt64) : Option UInt64 :=
  remainder? hash.abs.toUInt32.toUInt64 (max count 1)

namespace ChannelId

/-- The fold in machine words. -/
def foldWord? (c : ChannelId) : Option Int32 := do
  let mixed := c.hi ^^^ c.lo
  let upper ← shiftRight? mixed 32
  return upper.toUInt32.toInt32 ^^^ mixed.toUInt32.toInt32

/-- The shard in machine words. -/
def shardWord? (c : ChannelId) (count : UInt64) : Option UInt64 := do
  ShardedDelivery.shardWord? (← c.foldWord?) count

theorem foldWord?_eq (c : ChannelId) : c.foldWord? = some c.fold := by
  rw [fold, UInt32.toInt32_xor]
  rfl

theorem shardWord?_eq (c : ChannelId) (count : UInt64) :
    c.shardWord? count = ShardedDelivery.shardWord? c.fold count := by
  rw [shardWord?, foldWord?_eq]
  rfl

end ChannelId

theorem toNat_toUInt32_abs (hash : Int32) : hash.abs.toUInt32.toNat = hash.toInt.natAbs := by
  have habs : hash.abs.toUInt32.toNat =
      if hash.toBitVec.msb then 2 ^ 32 - hash.toBitVec.toNat else hash.toBitVec.toNat :=
    BitVec.toNat_abs
  have hlt := hash.toBitVec.isLt
  rw [habs, ← Int32.toInt_toBitVec, BitVec.toInt_eq_msb_cond]
  split <;> omega

/-- A share among `count` shards, as a number and as what machine words come to. -/
structure IsShare (hash : Int32) (count : UInt64) (share : Nat) (outcome : Option UInt64) :
    Prop where
  eq_mod : (share : Int) = |hash.toInt| % max (count.toNat : Int) 1
  lt : share < max count.toNat 1
  computed : ∃ w, outcome = some w ∧ w.toNat = share

theorem isShare (hash : Int32) (count : UInt64) :
    IsShare hash count (shard hash count.toNat) (shardWord? hash count) where
  eq_mod := by
    rw [shard, Int.natCast_emod, Int.natCast_natAbs, Nat.cast_max, Nat.cast_one]
  lt := shard_lt hash count.toNat
  computed := by
    have hmax : (max count 1).toNat = max count.toNat 1 := UInt64.toNat_max count 1
    have hpos : max count 1 ≠ 0 := by
      intro hzero
      rw [hzero, UInt64.toNat_zero] at hmax
      omega
    refine ⟨_, if_neg hpos, ?_⟩
    rw [UInt64.toNat_mod, UInt32.toNat_toUInt64, toNat_toUInt32_abs, hmax, shard]

/-- The lowest hash is the only one whose absolute value is no hash. -/
theorem exists_abs_iff {hash : Int32} :
    (∃ h : Int32, h.toInt = |hash.toInt|) ↔ hash ≠ Int32.minValue := by
  constructor
  · rintro ⟨h, hh⟩ rfl
    have hlt := h.toInt_lt
    rw [hh] at hlt
    exact absurd hlt (by decide)
  · intro hne
    refine ⟨hash.abs, ?_⟩
    have hbits : hash.toBitVec ≠ BitVec.intMin 32 := fun h => hne (Int32.toBitVec_inj.mp h)
    have habs := BitVec.toInt_abs_eq_natAbs (x := hash.toBitVec)
    rw [if_neg hbits, Int32.toInt_toBitVec, Int.natCast_natAbs] at habs
    exact habs

theorem toInt_neg_of_ne {hash : Int32} (hne : hash ≠ Int32.minValue) :
    (-hash).toInt = -hash.toInt := by
  have hlowest : hash.toInt ≠ -2 ^ 31 := fun h => hne (Int32.toInt_inj.mp h)
  have hle := hash.le_toInt
  have hlt := hash.toInt_lt
  rw [Int32.toInt_neg, Int.bmod_eq_of_le] <;> omega

/-- A hash and its negative have the same shard. -/
theorem shard_eq_of_toInt_eq_neg {hash hash' : Int32} (h : hash'.toInt = -hash.toInt)
    (count : Nat) : shard hash' count = shard hash count := by
  rw [shard, shard, h, Int.natAbs_neg]

namespace ChannelId

/-! ## Groups of bytes -/

variable {c d : ChannelId}

/-- The bytes in four groups of 32 bits. -/
def quarters (c : ChannelId) : List (List UInt8) :=
  [c.bytes.take 4, (c.bytes.drop 4).take 4, (c.bytes.drop 8).take 4, c.bytes.drop 12]

theorem flatten_quarters (c : ChannelId) : c.quarters.flatten = c.bytes := by
  have hdrop (n : Nat) : (c.bytes.drop n).take 4 ++ c.bytes.drop (n + 4) = c.bytes.drop n := by
    rw [← List.drop_drop, List.take_append_drop]
  simp only [quarters, List.flatten_cons, List.flatten_nil, List.append_nil]
  rw [hdrop 8, hdrop 4, List.take_append_drop]

theorem lengths_quarters (c : ChannelId) : c.quarters.map List.length = List.replicate 4 4 := by
  simp [quarters, length_bytes]

/-- Two digits for each byte spell the number that the bytes spell. -/
theorem join_nibbles (bs : List UInt8) : Hex.join 0 (nibbles bs) = bigEndian bs := by
  induction bs using List.reverseRecOn with
  | nil => rfl
  | append_singleton bs b ih =>
      have hlast (n : Nat) : Hex.join n (nibbles [b]) = 256 * n + b.toNat := by
        simp only [nibbles, List.flatMap_cons, List.flatMap_nil, Hex.join, List.append_nil,
          List.foldl_cons, List.foldl_nil]
        omega
      rw [nibbles_append, Hex.join_append, ih, hlast, bigEndian_append]
      simp [bigEndian]

theorem bigEndian_lastBytes (count : Nat) (w : UInt64) :
    bigEndian (lastBytes count w) = w.toNat % 256 ^ count := by
  rw [← join_nibbles, join_lastBytes, Nat.mul_zero, Nat.zero_add]

theorem bigEndian_bytes (c : ChannelId) : bigEndian c.bytes = c.toNat := by
  rw [← join_nibbles, join_bytes]

theorem toNat_shiftRight_half (w : UInt64) : (w >>> 32).toNat = w.toNat / 2 ^ 32 := by
  rw [UInt64.toNat_shiftRight, Nat.shiftRight_eq_div_pow]
  rfl

/-- A word's bytes are those of its upper half, and then of its lower one. -/
theorem lastBytes_eight (w : UInt64) : lastBytes 8 w = lastBytes 4 (w >>> 32) ++ lastBytes 4 w := by
  have hlt := w.toNat_lt
  -- Both are eight bytes, so the numbers that they spell decide.
  refine eq_of_bigEndian_eq (by simp [length_lastBytes]) ?_
  rw [bigEndian_append, bigEndian_lastBytes, bigEndian_lastBytes, bigEndian_lastBytes,
    length_lastBytes, toNat_shiftRight_half]
  omega

theorem quarters_eq (c : ChannelId) :
    c.quarters = [lastBytes 4 (c.hi >>> 32), lastBytes 4 c.hi, lastBytes 4 (c.lo >>> 32),
      lastBytes 4 c.lo] := by
  refine List.eq_iff_flatten_eq.mpr ⟨?_, ?_⟩
  · rw [flatten_quarters, bytes, lastBytes_eight, lastBytes_eight]
    simp
  · rw [lengths_quarters]
    simp [length_lastBytes]

theorem bigEndian_lastBytes_four (w : UInt64) :
    bigEndian (lastBytes 4 w) = w.toUInt32.toNat := by
  rw [bigEndian_lastBytes, UInt64.toNat_toUInt32]
  rfl

/-- The groups, combined, are the bits of the fold. -/
theorem combined_quarters (c : ChannelId) : combined c.quarters = c.fold.toUInt32.toNat := by
  rw [fold, UInt32.toUInt32_toInt32, UInt64.shiftRight_xor, UInt64.toUInt32_xor,
    UInt64.toUInt32_xor, quarters_eq, combined]
  simp only [List.map_cons, List.map_nil, List.foldr_cons, List.foldr_nil, Nat.xor_zero,
    bigEndian_lastBytes_four, UInt32.toNat_xor]
  ac_rfl

theorem toInt_fold (c : ChannelId) : c.fold.toInt = twosComplement (combined c.quarters) := by
  rw [combined_quarters, ← toInt_toInt32, Int32.toInt32_toUInt32]

/-- Identifiers whose groups are the same in some order have the same fold. -/
theorem fold_eq_of_perm (h : d.quarters.Perm c.quarters) : d.fold = c.fold := by
  rw [← Int32.toInt_inj, toInt_fold, toInt_fold, combined_perm h]

/-- Four groups of four bytes are the groups of one identifier. -/
theorem exists_quarters_eq_iff {groups : List (List UInt8)}
    (hlengths : groups.map List.length = List.replicate 4 4) :
    ∃ d : ChannelId, ∀ d' : ChannelId, d'.quarters = groups ↔ d' = d := by
  have hlength : groups.flatten.length = 16 := by
    rw [List.length_flatten, hlengths]
    rfl
  have hlt := bigEndian_lt groups.flatten
  rw [hlength] at hlt
  refine ⟨ofNat (bigEndian groups.flatten), fun d' => ⟨?_, ?_⟩⟩
  · rintro rfl
    rw [flatten_quarters, bigEndian_bytes, ofNat_toNat]
  · rintro rfl
    refine List.eq_iff_flatten_eq.mpr ⟨?_, by rw [lengths_quarters, hlengths]⟩
    rw [flatten_quarters]
    refine eq_of_bigEndian_eq (by rw [length_bytes, hlength]) ?_
    rw [bigEndian_bytes, toNat_ofNat hlt]

/-- Each hash is the fold of an identifier. -/
theorem exists_fold_eq (hash : Int32) : ∃ c : ChannelId, c.fold = hash := by
  -- The bits of the hash are the last group, and the other three are empty.
  refine ⟨⟨0, hash.toUInt32.toUInt64⟩, ?_⟩
  have hlt := hash.toUInt32.toNat_lt
  have hupper : (hash.toUInt32.toUInt64 >>> 32).toUInt32 = 0 := by
    rw [← UInt32.toNat_inj, UInt64.toNat_toUInt32, toNat_shiftRight_half, UInt32.toNat_toUInt64,
      Nat.div_eq_of_lt hlt]
    rfl
  simp only [fold, UInt64.zero_xor, hupper, UInt32.zero_xor, UInt32.toUInt32_toUInt64,
    Int32.toInt32_toUInt32]

/-- The fold as the bytes tell it. -/
structure FoldsBytes (c : ChannelId) : Prop where
  /-- The bytes spell the identifier. -/
  spelled : bigEndian c.bytes = 2 ^ 64 * c.hi.toNat + c.lo.toNat
  /-- They are cut into four groups of four. -/
  cut : c.quarters.flatten = c.bytes ∧ c.quarters.map List.length = List.replicate 4 4
  folded : c.fold.toInt = twosComplement (combined c.quarters)
  /-- In any order they are the groups of one identifier, and it has the same fold. -/
  permuted : ∀ groups, groups.Perm c.quarters →
    ∃ d : ChannelId, d.fold = c.fold ∧ ∀ d' : ChannelId, d'.quarters = groups ↔ d' = d
  computed : c.foldWord? = some c.fold

theorem foldsBytes (c : ChannelId) : c.FoldsBytes where
  spelled := by
    rw [bigEndian_bytes, toNat, Nat.shiftLeft_eq, Nat.mul_comm]
  cut := ⟨c.flatten_quarters, c.lengths_quarters⟩
  folded := c.toInt_fold
  permuted groups hperm := by
    have hlengths := hperm.map List.length
    rw [lengths_quarters, List.perm_replicate] at hlengths
    obtain ⟨d, hd⟩ := exists_quarters_eq_iff hlengths
    exact ⟨d, fold_eq_of_perm ((hd d).mpr rfl ▸ hperm), hd⟩
  computed := c.foldWord?_eq

end ChannelId

/-! ## Channels among shards -/

/-- All hashes, shared out among `count` shards. -/
structure SharesHashes (count : UInt64) : Prop where
  reached : ∀ hash, ∃ c : ChannelId, c.fold = hash
  shares : ∀ hash, IsShare hash count (shard hash count.toNat) (shardWord? hash count)
  /-- All absolute values are hashes, but for that of the lowest. -/
  lowest : ∀ hash : Int32, (∃ h : Int32, h.toInt = |hash.toInt|) ↔ hash ≠ Int32.minValue
  negated : ∀ hash : Int32, hash ≠ Int32.minValue →
    (-hash).toInt = -hash.toInt ∧ shard (-hash) count.toNat = shard hash count.toNat

theorem sharesHashes (count : UInt64) : SharesHashes count where
  reached := ChannelId.exists_fold_eq
  shares hash := isShare hash count
  lowest _ := exists_abs_iff
  negated _ hne := ⟨toInt_neg_of_ne hne, shard_eq_of_toInt_eq_neg (toInt_neg_of_ne hne) _⟩

/-- A channel goes to the shard that the groups of its bytes tell, in whichever order they are. It
is one of the shards there are, and every operation on words on the way to it has a result. -/
theorem shared_by_fold (c : ChannelId) (count : UInt64) :
    c.FoldsBytes ∧ IsShare c.fold count (c.shard count.toNat) (c.shardWord? count) ∧
      SharesHashes count := by
  refine ⟨c.foldsBytes, ?_, sharesHashes count⟩
  rw [c.shardWord?_eq]
  exact isShare c.fold count

/-- Four different groups whose fold is the lowest hash, among seven shards and among none, and
the same groups in another order. -/
theorem shared_by_fold_rehearsal :
    let c : ChannelId := ⟨0x8000000000000001, 0x0000000200000003⟩
    let d : ChannelId := ⟨0x0000000380000000, 0x0000000100000002⟩
    c.fold = Int32.minValue ∧ |c.fold.toInt| = 2 ^ 31 ∧ c.shardWord? 7 = some 2 ∧
      IsShare c.fold 7 (c.shard 7) (c.shardWord? 7) ∧
      IsShare c.fold 0 (c.shard 0) (c.shardWord? 0) ∧
      d.quarters.Perm c.quarters ∧ d.fold = c.fold ∧ shard (-5) 3 = shard 5 3 := by
  intro c d
  have hperm : d.quarters.Perm c.quarters := by decide +kernel
  obtain ⟨hbytes, hseven, -⟩ := shared_by_fold c 7
  obtain ⟨-, hnone, -⟩ := shared_by_fold c 0
  obtain ⟨d', hfold, hd'⟩ := hbytes.permuted d.quarters hperm
  obtain rfl : d = d' := (hd' d).mp rfl
  exact ⟨by decide +kernel, by decide +kernel, by decide +kernel, hseven, hnone, hperm, hfold,
    ((shared_by_fold c 3).2.2.negated 5 (by decide)).2⟩

end ShardedDelivery
