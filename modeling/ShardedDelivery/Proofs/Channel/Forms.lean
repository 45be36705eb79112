import ShardedDelivery.Proofs.Channel.Bytes

/-! # Forms of channel identifiers

Of the four forms one is written. All four are read, with digits and scheme in either case, and
nothing else is. -/

namespace ShardedDelivery.ChannelId

open Json

variable {c c' : ChannelId} {cs ds : List Char} {bs : List UInt8} {bss : List (List UInt8)}

/-! ## Layouts -/

/-- Two digits of either case for each byte. -/
def Pairs (cs : List Char) (bs : List UInt8) : Prop := List.Forall₂ HexDigit cs (nibbles bs)

/-- The bytes in the groups of the hyphenated form. -/
def byteGroups (c : ChannelId) : List (List UInt8) :=
  [c.bytes.take 4, (c.bytes.drop 4).take 2, (c.bytes.drop 6).take 2, (c.bytes.drop 8).take 2,
    c.bytes.drop 10]

/-- Groups of digits with hyphens between them. -/
def Hyphenated (c : ChannelId) (cs : List Char) : Prop :=
  ∃ parts, List.Forall₂ Pairs parts c.byteGroups ∧ cs = ['-'].intercalate parts

/-- How an identifier may be spelled. -/
inductive Spelling (c : ChannelId) : List Char → Prop where
  | bare {cs : List Char} (h : Pairs cs c.bytes) : Spelling c cs
  | hyphenated {cs : List Char} (h : c.Hyphenated cs) : Spelling c cs
  | braced {cs : List Char} (h : c.Hyphenated cs) : Spelling c ('\x7b' :: cs ++ ['\x7d'])
  | named {scheme cs : List Char}
      (hscheme : List.Forall₂ (fun a b => a = b ∨ a = b.toUpper) scheme "urn:uuid:".toList)
      (h : c.Hyphenated cs) : Spelling c (scheme ++ cs)

theorem Pairs.length_eq (h : Pairs cs bs) : cs.length = 2 * bs.length :=
  (List.Forall₂.length_eq h).trans (length_nibbles bs)

theorem Pairs.append {cs' : List Char} {bs' : List UInt8} (h : Pairs cs bs) (h' : Pairs cs' bs') :
    Pairs (cs ++ cs') (bs ++ bs') := by
  rw [Pairs, nibbles_append]
  exact List.rel_append h h'

/-- Digits of bytes in a row are digits of the first ones, and then of the others. -/
theorem Pairs.of_append {bs' : List UInt8} (h : Pairs cs (bs ++ bs')) :
    ∃ first rest, cs = first ++ rest ∧ Pairs first bs ∧ Pairs rest bs' := by
  rw [Pairs, nibbles_append] at h
  exact ⟨_, _, (List.take_append_drop _ cs).symm, List.forall₂_take_append _ _ _ h,
    List.forall₂_drop_append _ _ _ h⟩

theorem pairs_flatten_iff :
    Pairs ds bss.flatten ↔ ∃ parts, List.Forall₂ Pairs parts bss ∧ ds = parts.flatten := by
  constructor
  · intro h
    induction bss generalizing ds with
    | nil => exact ⟨[], .nil, List.forall₂_nil_right_iff.mp h⟩
    | cons bs bss ih =>
        obtain ⟨first, rest, rfl, hfirst, hrest⟩ := h.of_append
        obtain ⟨parts, hparts, rfl⟩ := ih hrest
        exact ⟨first :: parts, .cons hfirst hparts, rfl⟩
  · rintro ⟨parts, hparts, rfl⟩
    induction hparts with
    | nil => exact .nil
    | cons hfirst _ ih => exact hfirst.append ih

theorem flatten_byteGroups (c : ChannelId) : c.byteGroups.flatten = c.bytes := by
  simp only [byteGroups, List.flatten_cons, List.flatten_nil, List.append_nil]
  have hdrop (m n : Nat) : (c.bytes.drop m).take n ++ c.bytes.drop (m + n) = c.bytes.drop m := by
    rw [← List.drop_drop, List.take_append_drop]
  rw [hdrop 8 2, hdrop 6 2, hdrop 4 2, List.take_append_drop]

theorem length_byteGroups (c : ChannelId) :
    c.byteGroups.map (fun bs => 2 * bs.length) = groups := by
  simp [byteGroups, length_bytes, groups]

/-- Parts of the right widths are put together with hyphens between. -/
theorem hyphenate_flatten {parts : List (List Char)} {widths : List Nat}
    (h : List.Forall₂ (fun part width => part.length = width) parts widths) :
    hyphenate widths parts.flatten = ['-'].intercalate parts := by
  induction h with
  | nil => rfl
  | @cons part width parts widths hpart hparts ih =>
      cases hparts with
      | nil => simp [hyphenate, ← hpart]
      | cons hnext hparts =>
          rw [List.intercalate_cons_cons, ← ih, List.flatten_cons, hyphenate,
            List.take_left' hpart, List.drop_left' hpart]
          · simp
          · simp

/-- Hyphens are taken out where they were put in. -/
theorem unhyphenate?_eq_some_iff {widths : List Nat} :
    unhyphenate? widths cs = some ds ↔ ds.length = widths.sum ∧ cs = hyphenate widths ds := by
  constructor
  · intro h
    fun_induction unhyphenate? widths cs generalizing ds with
    | case1 cs hempty =>
        obtain rfl := Option.some.inj h
        exact ⟨rfl, List.isEmpty_iff.mp hempty⟩
    | case3 cs =>
        obtain rfl := Option.some.inj h
        exact ⟨by simp, by simp [hyphenate]⟩
    | case5 width widths cs hne rest hrest ih =>
        obtain ⟨ds', hds', rfl⟩ := Option.map_eq_some_iff.mp h
        obtain ⟨hlength, rfl⟩ := ih hds'
        have hwidth : (cs.take width).length = width := by
          have hdrop := congrArg List.length hrest
          simp only [List.length_drop, List.length_cons] at hdrop
          rw [List.length_take]
          omega
        refine ⟨by rw [List.length_append, hwidth, hlength, List.sum_cons], ?_⟩
        rw [hyphenate, List.take_left' hwidth, List.drop_left' hwidth, ← hrest,
          List.take_append_drop]
        exact hne
    | case2 | case4 | case6 => contradiction
  · rintro ⟨hlength, rfl⟩
    exact unhyphenate?_hyphenate hlength

/-- The hyphenated form is read where its hyphens are. -/
theorem hyphenated_iff :
    c.Hyphenated cs ↔ ∃ ds, Pairs ds c.bytes ∧ unhyphenate? groups cs = some ds := by
  have hwidths {parts : List (List Char)} (hparts : List.Forall₂ Pairs parts c.byteGroups) :
      List.Forall₂ (fun part width => part.length = width) parts groups := by
    rw [← c.length_byteGroups, List.forall₂_map_right_iff]
    exact hparts.imp fun _ _ => Pairs.length_eq
  constructor
  · rintro ⟨parts, hparts, rfl⟩
    have hpairs : Pairs parts.flatten c.bytes := by
      rw [← c.flatten_byteGroups]
      exact pairs_flatten_iff.mpr ⟨parts, hparts, rfl⟩
    have hlength : parts.flatten.length = groups.sum := hpairs.length_eq.trans (by
      rw [length_bytes]
      rfl)
    refine ⟨parts.flatten, hpairs, unhyphenate?_eq_some_iff.mpr ⟨hlength, ?_⟩⟩
    exact (hyphenate_flatten (hwidths hparts)).symm
  · rintro ⟨ds, hpairs, hread⟩
    rw [← c.flatten_byteGroups] at hpairs
    obtain ⟨parts, hparts, rfl⟩ := pairs_flatten_iff.mp hpairs
    refine ⟨parts, hparts, ?_⟩
    rw [(unhyphenate?_eq_some_iff.mp hread).2, hyphenate_flatten (hwidths hparts)]

/-! ## Reading -/

/-- Digits are read as the identifier whose bytes they spell. -/
theorem pairs_iff (hlength : ds.length = 32) :
    Pairs ds c.bytes ↔ (Hex.number? ds).map ofNat = some c := by
  have hnibbles : (nibbles c.bytes).length = 32 := by rw [length_nibbles, length_bytes]
  rw [Option.map_eq_some_iff]
  simp only [Hex.number?, Hex.numberFrom?_eq_some_iff]
  constructor
  · intro h
    exact ⟨c.toNat, ⟨_, h, c.join_bytes⟩, ofNat_toNat c⟩
  · rintro ⟨_, ⟨values, hvalues, rfl⟩, rfl⟩
    have hvalue := Hex.lt_of_digits hvalues
    have hcount : values.length = 32 := by rw [← hvalues.length_eq, hlength]
    have hlt : Hex.join 0 values < 2 ^ 128 := by
      have hbound := Hex.join_lt hvalue
      rwa [hcount] at hbound
    have hjoin : Hex.join 0 (nibbles (ofNat (Hex.join 0 values)).bytes) = Hex.join 0 values := by
      rw [join_bytes, toNat_ofNat hlt]
    have hsame : nibbles (ofNat (Hex.join 0 values)).bytes = values :=
      Hex.eq_of_join_eq (nibbles_lt _) hvalue (by rw [length_nibbles, length_bytes, hcount]) hjoin
    rwa [Pairs, hsame]

theorem toNat_toLower (c : Char) :
    c.toLower.toNat = if 65 ≤ c.toNat ∧ c.toNat ≤ 90 then c.toNat + 32 else c.toNat := by
  have hcond : (c.val ≥ 'A'.val ∧ c.val ≤ 'Z'.val) ↔ 65 ≤ c.toNat ∧ c.toNat ≤ 90 := by
    simp only [ge_iff_le, UInt32.le_iff_toNat_le]
    rfl
  have hstep : ('a'.val - 'A'.val).toNat = 32 := by decide
  by_cases h : 65 ≤ c.toNat ∧ c.toNat ≤ 90
  · have hlower : c.toLower = ⟨c.val + ('a'.val - 'A'.val), _⟩ := dif_pos (hcond.mpr h)
    rw [if_pos h, hlower, ← Char.toNat_val, UInt32.toNat_add, hstep, Char.toNat_val]
    omega
  · have hsame : c.toLower = c := dif_neg fun h' => h (hcond.mp h')
    rw [hsame, if_neg h]

theorem toNat_toUpper (c : Char) :
    c.toUpper.toNat = if 97 ≤ c.toNat ∧ c.toNat ≤ 122 then c.toNat - 32 else c.toNat := by
  have hcond : ('a'.val ≤ c.val ∧ c.val ≤ 'z'.val) ↔ 97 ≤ c.toNat ∧ c.toNat ≤ 122 := by
    simp only [UInt32.le_iff_toNat_le]
    rfl
  have hstep : ('A'.val - 'a'.val).toNat = 2 ^ 32 - 32 := by decide
  by_cases h : 97 ≤ c.toNat ∧ c.toNat ≤ 122
  · have hupper : c.toUpper = ⟨c.val + ('A'.val - 'a'.val), _⟩ := dif_pos (hcond.mpr h)
    rw [if_pos h, hupper, ← Char.toNat_val, UInt32.toNat_add, hstep, Char.toNat_val]
    omega
  · have hsame : c.toUpper = c := dif_neg fun h' => h (hcond.mp h')
    rw [hsame, if_neg h]

/-- A letter of the scheme is read in either case, and so is the scheme. -/
theorem toLower_eq_iff {a b : Char} (hb : b ∈ "urn:uuid:".toList) :
    a.toLower = b ↔ a = b ∨ a = b.toUpper := by
  have hlower : ∀ b ∈ "urn:uuid:".toList, ¬ (65 ≤ b.toNat ∧ b.toNat ≤ 90) := by simp
  have hb := hlower b hb
  simp only [← Char.toNat_inj, toNat_toLower, toNat_toUpper]
  split <;> split <;> omega

theorem map_toLower_eq_iff {scheme : List Char} :
    scheme.map Char.toLower = "urn:uuid:".toList ↔
      List.Forall₂ (fun a b => a = b ∨ a = b.toUpper) scheme "urn:uuid:".toList := by
  rw [← List.forall₂_eq_eq_eq, List.forall₂_map_left_iff, List.forall₂_iff_zip,
    List.forall₂_iff_zip]
  refine and_congr_right fun _ => ⟨fun h _ _ hab => ?_, fun h _ _ hab => ?_⟩
  · exact (toLower_eq_iff (List.of_mem_zip hab).2).mp (h hab)
  · exact (toLower_eq_iff (List.of_mem_zip hab).2).mpr (h hab)

theorem dropScheme?_eq_some_iff {rest : List Char} :
    dropScheme? cs = some rest ↔ ∃ scheme,
      List.Forall₂ (fun a b => a = b ∨ a = b.toUpper) scheme "urn:uuid:".toList ∧
        cs = scheme ++ rest := by
  rw [dropScheme?]
  constructor
  · intro h
    split at h
    next hscheme =>
      obtain rfl := Option.some.inj h
      exact ⟨cs.take 9, map_toLower_eq_iff.mp hscheme, (List.take_append_drop 9 cs).symm⟩
    next => nomatch h
  · rintro ⟨scheme, hscheme, rfl⟩
    have hlength : scheme.length = 9 := hscheme.length_eq
    rw [List.take_left' hlength, List.drop_left' hlength, if_pos (map_toLower_eq_iff.mpr hscheme)]

theorem dropBraces?_eq_some_iff {rest : List Char} :
    dropBraces? cs = some rest ↔ cs = '\x7b' :: rest ++ ['\x7d'] := by
  constructor
  · intro h
    fun_cases dropBraces? cs with
    | case1 inner hlast =>
        simp only [dropBraces?, hlast, if_true, Option.some.injEq] at h
        rw [← h, List.cons_append, List.dropLast_append_getLast? _ hlast]
    | case2 inner hlast => simp [dropBraces?, hlast] at h
    | case3 => simp_all [dropBraces?]
  · rintro rfl
    simp [dropBraces?]

theorem length_of_unhyphenate (h : unhyphenate? groups cs = some ds) :
    ds.length = 32 ∧ cs.length = 36 := by
  obtain ⟨hlength, rfl⟩ := unhyphenate?_eq_some_iff.mp h
  exact ⟨hlength, length_hyphenate hlength⟩

/-- A name starts with no brace. -/
theorem dropBraces?_scheme {scheme : List Char} (rest : List Char)
    (hscheme : List.Forall₂ (fun a b => a = b ∨ a = b.toUpper) scheme "urn:uuid:".toList) :
    dropBraces? (scheme ++ rest) = none := by
  obtain ⟨a, scheme, ha, -, rfl⟩ := List.forall₂_cons_right_iff.mp hscheme
  have hbrace : a ≠ '\x7b' := by
    rintro rfl
    exact absurd ha (by decide)
  rw [List.cons_append]
  unfold dropBraces?
  split
  next heq => exact absurd (List.cons.inj heq).1 hbrace
  next => rfl

theorem digitsOf?_eq_some_iff :
    digitsOf? cs = some ds ↔
      (cs.length = 32 ∧ cs = ds) ∨
      unhyphenate? groups cs = some ds ∨
      ∃ inner, unhyphenate? groups inner = some ds ∧
        (dropBraces? cs = some inner ∨ dropScheme? cs = some inner) := by
  constructor
  · intro h
    rw [digitsOf?] at h
    split at h
    next hbare => exact .inl ⟨hbare, Option.some.inj h⟩
    next =>
      split at h
      next => exact .inr (.inl h)
      next =>
        obtain ⟨inner, hdrop, hinner⟩ := Option.bind_eq_some_iff.mp h
        rw [Option.orElse_eq_orElse, Option.orElse_eq_or, Option.or_eq_some_iff] at hdrop
        exact .inr (.inr ⟨inner, hinner, hdrop.imp_right And.right⟩)
  · rintro (⟨hbare, rfl⟩ | h | ⟨inner, hinner, hdrop⟩)
    · rw [digitsOf?, if_pos hbare]
    · rw [digitsOf?, (length_of_unhyphenate h).2, if_neg (by decide), if_pos rfl, h]
    · have hlength := (length_of_unhyphenate hinner).2
      rcases hdrop with hbraces | hscheme
      · obtain rfl := dropBraces?_eq_some_iff.mp hbraces
        have hwhole : ('\x7b' :: inner ++ ['\x7d']).length = 38 := by simp [hlength]
        rw [digitsOf?, hwhole, if_neg (by decide), if_neg (by decide), hbraces]
        exact hinner
      · obtain ⟨scheme, hspelled, rfl⟩ := dropScheme?_eq_some_iff.mp hscheme
        have hwhole : (scheme ++ inner).length = 45 := by
          rw [List.length_append, hspelled.length_eq, hlength]
          rfl
        rw [digitsOf?, hwhole, if_neg (by decide), if_neg (by decide),
          dropBraces?_scheme inner hspelled, hscheme]
        exact hinner

/-- What is read as an identifier is a spelling of it, and every spelling is. -/
theorem ofChars?_eq_some_iff : ofChars? cs = some c ↔ c.Spelling cs := by
  have hread : ofChars? cs = some c ↔
      ∃ ds, digitsOf? cs = some ds ∧ (Hex.number? ds).map ofNat = some c := by
    rw [ofChars?, Option.map_bind, Option.bind_eq_some_iff]
    rfl
  have hhyphenated {inner ds : List Char} (hinner : unhyphenate? groups inner = some ds)
      (hds : (Hex.number? ds).map ofNat = some c) : c.Hyphenated inner :=
    hyphenated_iff.mpr ⟨ds, (pairs_iff (length_of_unhyphenate hinner).1).mpr hds, hinner⟩
  have hdigits {inner : List Char} (h : c.Hyphenated inner) :
      ∃ ds, unhyphenate? groups inner = some ds ∧ (Hex.number? ds).map ofNat = some c := by
    obtain ⟨ds, hpairs, hinner⟩ := hyphenated_iff.mp h
    exact ⟨ds, hinner, (pairs_iff (length_of_unhyphenate hinner).1).mp hpairs⟩
  rw [hread]
  constructor
  · rintro ⟨ds, hform, hds⟩
    rcases digitsOf?_eq_some_iff.mp hform with
      ⟨hbare, rfl⟩ | hinner | ⟨inner, hinner, hbraces | hscheme⟩
    · exact .bare ((pairs_iff hbare).mpr hds)
    · exact .hyphenated (hhyphenated hinner hds)
    · obtain rfl := dropBraces?_eq_some_iff.mp hbraces
      exact .braced (hhyphenated hinner hds)
    · obtain ⟨scheme, hspelled, rfl⟩ := dropScheme?_eq_some_iff.mp hscheme
      exact .named hspelled (hhyphenated hinner hds)
  · intro h
    simp only [digitsOf?_eq_some_iff]
    cases h with
    | bare h =>
        have hbare : cs.length = 32 := h.length_eq.trans (by rw [length_bytes])
        exact ⟨cs, .inl ⟨hbare, rfl⟩, (pairs_iff hbare).mp h⟩
    | hyphenated h =>
        obtain ⟨ds, hinner, hds⟩ := hdigits h
        exact ⟨ds, .inr (.inl hinner), hds⟩
    | braced h =>
        obtain ⟨ds, hinner, hds⟩ := hdigits h
        exact ⟨ds, .inr (.inr ⟨_, hinner, .inl (dropBraces?_eq_some_iff.mpr rfl)⟩), hds⟩
    | named hscheme h =>
        obtain ⟨ds, hinner, hds⟩ := hdigits h
        exact ⟨ds, .inr (.inr ⟨_, hinner, .inr (dropScheme?_eq_some_iff.mpr ⟨_, hscheme, rfl⟩)⟩),
          hds⟩

/-- A text spells one identifier at most. -/
theorem Spelling.eq (h : c.Spelling cs) (h' : c'.Spelling cs) : c = c' :=
  Option.some.inj ((ofChars?_eq_some_iff.mpr h).symm.trans (ofChars?_eq_some_iff.mpr h'))

/-! ## Writing -/

/-- The two digits of each byte, in lower case. -/
def hex (bs : List UInt8) : List Char := (nibbles bs).map Nat.digitChar

theorem pairs_hex (bs : List UInt8) : Pairs (hex bs) bs := by
  rw [Pairs, hex, List.forall₂_map_left_iff]
  exact List.forall₂_same.mpr fun v hv => .digitChar (nibbles_lt bs v hv)

theorem hex_flatten (bss : List (List UInt8)) : hex bss.flatten = (bss.map hex).flatten := by
  induction bss with
  | nil => rfl
  | cons bs bss ih =>
      rw [List.map_cons, List.flatten_cons, List.flatten_cons, ← ih, hex, hex, hex, nibbles_append,
        List.map_append]

theorem digits_toNat (c : ChannelId) : Hex.digits 32 c.toNat = hex c.bytes := by
  have h := Hex.digits_join (nibbles_lt c.bytes) 0
  rwa [length_nibbles, length_bytes, join_bytes] at h

/-- The written form is the hyphenated one, in lower case. -/
theorem chars_eq (c : ChannelId) : c.chars = ['-'].intercalate (c.byteGroups.map hex) := by
  rw [chars, digits_toNat, ← flatten_byteGroups, hex_flatten, hyphenate_flatten]
  rw [← c.length_byteGroups, List.forall₂_map_left_iff, List.forall₂_map_right_iff]
  exact List.forall₂_same.mpr fun bs _ => (pairs_hex bs).length_eq

theorem mem_hyphenate {x : Char} {widths : List Nat} (h : x ∈ hyphenate widths cs) :
    x = '-' ∨ x ∈ cs := by
  fun_induction hyphenate widths cs with
  | case1 => contradiction
  | case2 => exact .inr (List.mem_of_mem_take h)
  | case3 width widths cs hne ih =>
      rcases List.mem_append.mp h with h | h
      · exact .inr (List.mem_of_mem_take h)
      · rcases List.mem_cons.mp h with h | h
        · exact .inl h
        · exact (ih h).imp_right List.mem_of_mem_drop

/-- Nothing but hyphens and digits is written. -/
theorem mem_chars {x : Char} (h : x ∈ c.chars) : x = '-' ∨ ∃ v < 16, x = v.digitChar := by
  refine (mem_hyphenate h).imp_right fun hx => ?_
  rw [digits_toNat, hex, List.mem_map] at hx
  obtain ⟨v, hv, rfl⟩ := hx
  exact ⟨v, nibbles_lt _ v hv, rfl⟩

theorem spelling_text (c : ChannelId) : c.Spelling c.text.toList :=
  ofChars?_eq_some_iff.mp c.ofText?_text

/-- Identifiers are told by their written form. -/
theorem eq_of_text (h : c.text = c'.text) : c = c' := by
  have hspelling := c'.spelling_text
  rw [← h] at hspelling
  exact c.spelling_text.eq hspelling

end ShardedDelivery.ChannelId
