import ShardedDelivery.Json.Writer
import ShardedDelivery.Proofs.Json.Grammar

/-! # Scanning

Texts that spell tokens can be put together, with a bracket, a comma, a colon or a space after
every number. Strings and numbers of the grammar spell one token each, and so they do as they are
written. -/

namespace ShardedDelivery.Json

/-! ## Spelling -/

/-- Characters that end any number before them. -/
def Delimited (rest : List Char) : Prop :=
  ∀ c ∈ rest.head?, c.isDigit = false ∧ c ≠ '.' ∧ c ≠ 'e' ∧ c ≠ 'E'

/-- The characters spell these tokens, whatever follows. -/
def Closes (cs : List Char) (ts : List Token) : Prop :=
  ∀ rest, Mode.between.scan (cs ++ rest) = ts ++ Mode.between.scan rest

/-- The characters spell these tokens, unless a number at their end goes on. -/
def Spells (cs : List Char) (ts : List Token) : Prop :=
  ∀ rest, Delimited rest → Mode.between.scan (cs ++ rest) = ts ++ Mode.between.scan rest

theorem Delimited.nil : Delimited [] := by simp [Delimited]

theorem Delimited.cons {c : Char} (hdigit : c.isDigit = false) (hpoint : c ≠ '.') (he : c ≠ 'e')
    (hE : c ≠ 'E') (rest : List Char) : Delimited (c :: rest) := by
  simp [Delimited, hdigit, hpoint, he, hE]

section Ends

variable (rest : List Char)

theorem Delimited.comma : Delimited (',' :: rest) :=
  .cons (by decide) (by decide) (by decide) (by decide) rest

theorem Delimited.colon : Delimited (':' :: rest) :=
  .cons (by decide) (by decide) (by decide) (by decide) rest

theorem Delimited.closeArray : Delimited (']' :: rest) :=
  .cons (by decide) (by decide) (by decide) (by decide) rest

theorem Delimited.closeObject : Delimited ('\x7d' :: rest) :=
  .cons (by decide) (by decide) (by decide) (by decide) rest

end Ends

theorem Closes.spells {cs : List Char} {ts : List Token} (h : Closes cs ts) : Spells cs ts :=
  fun rest _ => h rest

section Marks

variable {cs cs' : List Char} {ts ts' : List Token}

theorem Closes.openObject : Closes ['\x7b'] [.openObject] := fun _ => rfl

theorem Closes.closeObject : Closes ['\x7d'] [.closeObject] := fun _ => rfl

theorem Closes.openArray : Closes ['['] [.openArray] := fun _ => rfl

theorem Closes.closeArray : Closes [']'] [.closeArray] := fun _ => rfl

theorem Closes.comma : Closes [','] [.comma] := fun _ => rfl

theorem Closes.colon : Closes [':'] [.colon] := fun _ => rfl

theorem Closes.append (h : Closes cs ts) (h' : Closes cs' ts') :
    Closes (cs ++ cs') (ts ++ ts') := by
  intro rest
  rw [List.append_assoc, h, h', List.append_assoc]

theorem Closes.append_spells (h : Closes cs ts) (h' : Spells cs' ts') :
    Spells (cs ++ cs') (ts ++ ts') := by
  intro rest hrest
  rw [List.append_assoc, h, h' rest hrest, List.append_assoc]

theorem Spells.append_closes (h : Spells cs ts) (hcs : ∀ rest, Delimited (cs' ++ rest))
    (h' : Closes cs' ts') : Closes (cs ++ cs') (ts ++ ts') := by
  intro rest
  rw [List.append_assoc, h _ (hcs rest), h', List.append_assoc]

theorem Spells.bracketed {opening closing : Char} {opened closed : Token} (h : Spells cs ts)
    (hopening : Closes [opening] [opened]) (hclosing : Closes [closing] [closed])
    (hend : ∀ rest, Delimited (closing :: rest)) :
    Closes (opening :: cs ++ [closing]) (opened :: ts ++ [closed]) :=
  hopening.append (h.append_closes hend hclosing)

theorem Closes.blank {blank : List Char} (h : Blank blank) : Closes blank [] := by
  induction blank with
  | nil => exact fun _ => rfl
  | cons c blank ih =>
      intro rest
      have hc := h c List.mem_cons_self
      simp only [List.mem_cons, List.not_mem_nil, or_false] at hc
      rw [List.cons_append, Mode.scan, Mode.step, Mode.start, if_pos hc]
      exact ih (fun x hx => h x (List.mem_cons_of_mem _ hx)) rest

theorem Blank.delimited {blank rest : List Char} (h : Blank blank) (hrest : Delimited rest) :
    Delimited (blank ++ rest) := by
  cases blank with
  | nil => exact hrest
  | cons c blank =>
      have hc := h c List.mem_cons_self
      simp only [List.mem_cons, List.not_mem_nil, or_false] at hc
      rcases hc with rfl | rfl | rfl | rfl <;>
        exact .cons (by decide) (by decide) (by decide) (by decide) _

/-- Space around it makes no difference. -/
theorem Spells.padded {before after : List Char} (h : Spells cs ts) (hbefore : Blank before)
    (hafter : Blank after) : Spells (before ++ cs ++ after) ts := by
  intro rest hrest
  rw [List.append_assoc, List.append_assoc, Closes.blank hbefore, h _ (hafter.delimited hrest),
    Closes.blank hafter]
  rfl

/-- What is spelled apart is spelled with commas between. -/
theorem Spells.intercalate {css : List (List Char)} {tss : List (List Token)}
    (h : List.Forall₂ Spells css tss) :
    Spells ([','].intercalate css) ([.comma].intercalate tss) := by
  induction h with
  | nil => exact fun _ _ => rfl
  | cons hfirst hrest ih =>
      cases hrest with
      | nil => simpa using hfirst
      | cons hnext hrest =>
          rw [List.intercalate_cons_cons, List.intercalate_cons_cons]
          exact (hfirst.append_closes Delimited.comma Closes.comma).append_spells ih

end Marks

/-! ## Strings -/

namespace HexDigit

variable {c : Char} {value : Nat}

theorem digitChar (h : value < 16) : HexDigit value.digitChar value := ⟨h, .inl rfl⟩

theorem value?_eq (h : HexDigit c value) : Hex.value? c = some value := by
  have hall : ∀ k : Fin 16, Hex.value? (Nat.digitChar k) = some k.val ∧
      Hex.value? (Nat.digitChar k).toUpper = some k.val := by decide
  obtain ⟨hvalue, rfl | rfl⟩ := h
  · exact (hall ⟨value, hvalue⟩).1
  · exact (hall ⟨value, hvalue⟩).2

theorem utf8Size_eq (h : HexDigit c value) : c.utf8Size = 1 := by
  have hall : ∀ k : Fin 16, (Nat.digitChar k).utf8Size = 1 ∧
      (Nat.digitChar k).toUpper.utf8Size = 1 := by decide
  obtain ⟨hvalue, rfl | rfl⟩ := h
  · exact (hall ⟨value, hvalue⟩).1
  · exact (hall ⟨value, hvalue⟩).2

end HexDigit

namespace Mode

/-- One more digit of a unit. -/
theorem step_unit (pieces : Literal) {bytes k : Nat} {c : Char} (value : Nat) (hb : bytes < 3)
    (hc : HexDigit c k) :
    (unit pieces bytes (some value)).step c =
      ([], unit pieces (bytes + 1) (some (16 * value + k))) := by
  simp [step, hc.utf8Size_eq, Hex.numberFrom?, hc.value?_eq, hb]

/-- The last digit of a unit. -/
theorem step_unit_last (pieces : Literal) {k : Nat} {c : Char} (value : Nat)
    (hc : HexDigit c k) :
    (unit pieces 3 (some value)).step c = ([], text (.unit (16 * value + k) :: pieces)) := by
  simp [step, hc.utf8Size_eq, Hex.numberFrom?, hc.value?_eq]

/-- However a piece is spelled, it is scanned as the piece. -/
theorem scan_piece {cs : List Char} {p : Piece} (h : p.Spelling cs) (pieces : Literal)
    (rest : List Char) :
    (text pieces).scan (cs ++ rest) = (text (p :: pieces)).scan rest := by
  cases h with
  | plain hcontrol hquote hslash => simp [scan, step, hcontrol, hquote, hslash]
  | short h =>
      simp only [shortEscapes, List.mem_cons, Prod.mk.injEq, List.not_mem_nil, or_false] at h
      rcases h with ⟨rfl, rfl⟩ | ⟨rfl, rfl⟩ | ⟨rfl, rfl⟩ | ⟨rfl, rfl⟩ | ⟨rfl, rfl⟩ | ⟨rfl, rfl⟩ |
        ⟨rfl, rfl⟩ | ⟨rfl, rfl⟩ <;> rfl
  | @unit a b c d i j k l ha hb hc hd =>
      have hopen (cs : List Char) : (text pieces).scan ('\\' :: 'u' :: cs) =
          (unit pieces 0 (some 0)).scan cs := rfl
      simp only [List.cons_append, List.nil_append, hopen, scan]
      rw [step_unit pieces 0 (by decide) ha, step_unit pieces _ (by decide) hb,
        step_unit pieces _ (by decide) hc, step_unit_last pieces _ hd]
      simp

/-- However a string is spelled, it spells its literal. -/
theorem closes_text {cs : List Char} {l : Literal} (h : l.Spelling cs) :
    Closes cs [.text l] := by
  obtain ⟨css, hpieces, rfl⟩ := h
  have hscan (pieces : Literal) (rest : List Char) :
      (text pieces).scan (css.flatten ++ '"' :: rest) =
        .text (pieces.reverse ++ l) :: between.scan rest := by
    induction hpieces generalizing pieces with
    | nil => simp [scan, step]
    | cons hpiece _ ih =>
        rw [List.flatten_cons, List.append_assoc, scan_piece hpiece, ih]
        simp
  intro rest
  have h := hscan [] rest
  simpa [scan, step, start] using h

end Mode

/-- The piece that a character is written as. -/
def Piece.ofChar (c : Char) : Piece :=
  if c < ' ' ∧ c ∉ ['\x08', '\x0c', '\n', '\r', '\t'] then .unit c.toNat else .plain c

/-- The literal that a string is written as. -/
def Literal.ofText (s : String) : Literal := s.toList.map Piece.ofChar

/-- Four digits spell a unit. -/
theorem Piece.spelling_digits {n : Nat} (hn : n < 65536) :
    (Piece.unit n).Spelling ('\\' :: 'u' :: Hex.digits 4 n) := by
  have hdigit (m : Nat) : HexDigit (m % 16).digitChar (m % 16) :=
    .digitChar (Nat.mod_lt m (by decide))
  have hvalue : 16 * (16 * (16 * (n / 16 / 16 / 16 % 16) + n / 16 / 16 % 16) + n / 16 % 16) +
      n % 16 = n := by omega
  have hunit := Piece.Spelling.unit (hdigit (n / 16 / 16 / 16)) (hdigit (n / 16 / 16))
    (hdigit (n / 16)) (hdigit n)
  rwa [hvalue] at hunit

/-- A character is spelled as it is written. -/
theorem Piece.spelling_escape (c : Char) : (Piece.ofChar c).Spelling (Json.escape c) := by
  by_cases hquote : c = '"' ∨ c = '\\'
  · rcases hquote with rfl | rfl <;> exact .short (by decide)
  by_cases hshort : c ∈ ['\x08', '\x0c', '\n', '\r', '\t']
  · simp only [List.mem_cons, List.not_mem_nil, or_false] at hshort
    rcases hshort with rfl | rfl | rfl | rfl | rfl <;> exact .short (by decide)
  have hescape : Json.escape c = if c < ' ' then '\\' :: 'u' :: Hex.digits 4 c.toNat else [c] := by
    simp only [List.mem_cons, List.not_mem_nil, or_false, not_or] at hshort
    simp [Json.escape, hquote, hshort]
  by_cases hcontrol : c < ' '
  · have hpiece : Piece.ofChar c = .unit c.toNat := if_pos ⟨hcontrol, hshort⟩
    rw [hescape, if_pos hcontrol, hpiece]
    exact spelling_digits (Nat.lt_trans (m := ' '.toNat) hcontrol (by decide))
  · have hpiece : Piece.ofChar c = .plain c := if_neg fun h => hcontrol h.1
    rw [hescape, if_neg hcontrol, hpiece]
    rw [not_or] at hquote
    exact .plain hcontrol hquote.1 hquote.2

theorem Literal.pieces_ofText (s : String) :
    List.Forall₂ Piece.Spelling (s.toList.map Json.escape) (ofText s) := by
  rw [ofText, List.forall₂_map_left_iff, List.forall₂_map_right_iff]
  exact List.forall₂_same.mpr fun c _ => Piece.spelling_escape c

/-- A string is spelled as it is written. -/
theorem Literal.spelling_writeText (s : String) :
    (Literal.ofText s).Spelling (writeText s).toList :=
  ⟨_, pieces_ofText s, by simp [writeText, List.flatMap_def]⟩

/-! ## Numbers -/

namespace Draft

/-- The draft with more digits of the part that was read last. -/
def more (d : Draft) (digits : List Char) : Draft :=
  match d.part with
  | .whole => { d with whole := digits.reverse ++ d.whole }
  | .fraction => { d with fraction := digits.reverse ++ d.fraction }
  | .exponent => { d with exponent := digits.reverse ++ d.exponent }
  | _ => d

/-- Digits may follow the last one. -/
def Continues (d : Draft) : Prop := d.part = .whole ∨ d.part = .fraction ∨ d.part = .exponent

theorem Continues.extend? {d : Draft} (h : d.Continues) {c : Char} (hc : c.isDigit) :
    d.extend? c = some (d.more [c]) := by
  rcases h with h | h | h <;> simp [Draft.extend?, Draft.extend?.digit, more, h, hc]

theorem more_nil (d : Draft) : d.more [] = d := by
  rcases d with ⟨_ | _ | _ | _ | _ | _ | _ | _, _, _, _, _, _⟩ <;> rfl

theorem Continues.more {d : Draft} (h : d.Continues) (digits : List Char) :
    (d.more digits).Continues := by
  rcases h with h | h | h <;> simp [Continues, Draft.more, h]

theorem Continues.more_cons {d : Draft} (h : d.Continues) (c : Char) (digits : List Char) :
    (d.more [c]).more digits = d.more (c :: digits) := by
  rcases h with h | h | h <;> simp [Draft.more, h]

end Draft

namespace Mode

/-- Digits go on with the part of a number that was read last. -/
theorem scan_digits {d : Draft} (hd : d.Continues) {digits : List Char}
    (hdigits : ∀ c ∈ digits, c.isDigit) (rest : List Char) :
    (number d).scan (digits ++ rest) = (number (d.more digits)).scan rest := by
  induction digits generalizing d with
  | nil => rw [d.more_nil, List.nil_append]
  | cons c digits ih =>
      have hstep : (number d).step c = ([], number (d.more [c])) := by
        simp [step, hd.extend? (hdigits c List.mem_cons_self)]
      rw [List.cons_append, scan, hstep,
        ih (hd.more [c]) fun x hx => hdigits x (List.mem_cons_of_mem _ hx), hd.more_cons]
      rfl

/-- A number that may end is over before whatever does not go on with it. -/
theorem scan_delimited {d : Draft} {n : Numeral} {rest : List Char} (hd : d.numeral? = some n)
    (hrest : Delimited rest) :
    (number d).scan rest = .number n :: between.scan rest := by
  cases rest with
  | nil => simp [scan, finish, hd]
  | cons c rest =>
      obtain ⟨hdigit, hpoint, he, hE⟩ := hrest c rfl
      have hextend : d.extend? c = none := by
        cases hpart : d.part <;>
          simp [Draft.numeral?, hpart] at hd <;>
          simp [Draft.extend?, Draft.extend?.afterWhole, Draft.extend?.afterFraction,
            Draft.extend?.digit, hpart, hdigit, hpoint, he, hE]
      have hend : d.mayEndBefore c := by simp [Draft.mayEndBefore, hdigit]
      simp [scan, step, hextend, hd, hend]

/-- A digit other than zero starts a number. -/
theorem start_digit {c : Char} (hdigit : c.isDigit) (hc : c ≠ '0') :
    start c = ([], number { part := .whole, whole := [c] }) := by
  have hne : ∀ x : Char, x.isDigit = false → c ≠ x := by
    rintro x hx rfl
    exact absurd (hdigit.symm.trans hx) (by decide)
  simp (disch := decide) only [start, hne, hc, hdigit, or_self, if_false, if_true]

/-- A number starts with its sign and its whole part. -/
theorem scan_whole {whole : List Char} (h : WholeDigits whole) (negative : Bool) :
    ∃ part, (part = .zero ∨ part = .whole) ∧ ∀ rest,
      between.scan ((if negative then ['-'] else []) ++ whole ++ rest) =
        (number { part, negative, whole := whole.reverse }).scan rest := by
  rcases h with rfl | ⟨⟨hne, hdigits⟩, hhead⟩
  · exact ⟨.zero, .inl rfl, fun rest => by cases negative <;> rfl⟩
  · obtain ⟨c, digits, rfl⟩ := List.exists_cons_of_ne_nil hne
    have hzero : c ≠ '0' := fun h => hhead (congrArg some h)
    have hc := hdigits c List.mem_cons_self
    refine ⟨.whole, .inr rfl, fun rest => ?_⟩
    have hstart : between.scan ((if negative then ['-'] else []) ++ (c :: digits) ++ rest) =
        (number { part := .whole, negative, whole := [c] }).scan (digits ++ rest) := by
      cases negative with
      | false => simp [scan, step, start_digit hc hzero]
      | true =>
          have hsign (cs : List Char) : between.scan ('-' :: cs) =
              (number { part := .minus, negative := true }).scan cs := rfl
          have hdigit : (number { part := .minus, negative := true }).step c =
              ([], number { part := .whole, negative := true, whole := [c] }) := by
            simp [step, Draft.extend?, hzero, hc]
          simp only [if_true, List.cons_append, List.nil_append, hsign, scan, hdigit]
    rw [hstart, scan_digits (.inl rfl) fun x hx => hdigits x (List.mem_cons_of_mem _ hx)]
    simp [Draft.more]

/-- After the whole part, the fraction may follow. -/
theorem scan_fraction {point fraction : List Char} (h : FractionSpelling point fraction)
    {part : Part} (hpart : part = .zero ∨ part = .whole) (negative : Bool) (whole : List Char) :
    ∃ part', (part' = .zero ∨ part' = .whole ∨ part' = .fraction) ∧ ∀ rest,
      (number { part, negative, whole }).scan (point ++ rest) =
        (number { part := part', negative, whole, fraction := fraction.reverse }).scan rest := by
  cases h with
  | absent => exact ⟨part, hpart.imp_right .inl, fun rest => rfl⟩
  | point h =>
      obtain ⟨hne, hdigits⟩ := h
      obtain ⟨c, digits, rfl⟩ := List.exists_cons_of_ne_nil hne
      refine ⟨.fraction, .inr (.inr rfl), fun rest => ?_⟩
      have hpoint (cs : List Char) : (number { part, negative, whole }).scan ('.' :: cs) =
          (number { part := .point, negative, whole }).scan cs := by
        rcases hpart with rfl | rfl <;> rfl
      have hdigit : (number { part := .point, negative, whole }).step c =
          ([], number { part := .fraction, negative, whole, fraction := [c] }) := by
        simp [step, Draft.extend?, hdigits c List.mem_cons_self]
      simp only [List.cons_append, hpoint, scan, hdigit]
      rw [List.nil_append,
        scan_digits (.inr (.inl rfl)) fun x hx => hdigits x (List.mem_cons_of_mem _ hx)]
      simp [Draft.more]

/-- The digits of an exponent end a number. -/
theorem scan_exponent {d : Draft} (hd : d.part = .mark ∨ d.part = .sign) (hnone : d.exponent = [])
    {digits rest : List Char} (h : Digits digits) (hrest : Delimited rest) :
    (number d).scan (digits ++ rest) =
      .number ⟨d.negative, d.whole.reverse, d.fraction.reverse, some (d.lowers, digits)⟩ ::
        between.scan rest := by
  obtain ⟨hne, hdigits⟩ := h
  obtain ⟨c, digits, rfl⟩ := List.exists_cons_of_ne_nil hne
  have hc := hdigits c List.mem_cons_self
  have hdigit : (number d).step c = ([], number { d with part := .exponent, exponent := [c] }) := by
    have hplus : c ≠ '+' := by rintro rfl; contradiction
    have hminus : c ≠ '-' := by rintro rfl; contradiction
    rcases hd with hd | hd <;>
      simp [step, Draft.extend?, Draft.extend?.digit, hd, hplus, hminus, hc, hnone]
  rw [List.cons_append, scan, hdigit, List.nil_append,
    scan_digits (.inr (.inr rfl)) fun x hx => hdigits x (List.mem_cons_of_mem _ hx)]
  exact scan_delimited (by simp [Draft.numeral?, Draft.more]) hrest

/-- After the fraction, the exponent may follow. -/
theorem scan_power {power : List Char} {exponent : Option (Bool × List Char)}
    (h : ExponentSpelling power exponent) {part : Part}
    (hpart : part = .zero ∨ part = .whole ∨ part = .fraction) (negative : Bool)
    (whole fraction : List Char) {rest : List Char} (hrest : Delimited rest) :
    (number { part, negative, whole, fraction }).scan (power ++ rest) =
      .number ⟨negative, whole.reverse, fraction.reverse, exponent⟩ :: between.scan rest := by
  have hmark {mark : Char} (hm : mark = 'e' ∨ mark = 'E') (cs : List Char) :
      (number { part, negative, whole, fraction }).scan (mark :: cs) =
        (number { part := .mark, negative, whole, fraction }).scan cs := by
    rcases hm with rfl | rfl <;> rcases hpart with rfl | rfl | rfl <;> rfl
  cases h with
  | absent =>
      refine scan_delimited ?_ hrest
      rcases hpart with rfl | rfl | rfl <;> rfl
  | bare hm h =>
      rw [List.cons_append, hmark hm, scan_exponent (.inl rfl) rfl h hrest]
  | plus hm h =>
      have hplus (cs : List Char) :
          (number { part := .mark, negative, whole, fraction }).scan ('+' :: cs) =
            (number { part := .sign, negative, whole, fraction }).scan cs := rfl
      rw [List.cons_append, List.cons_append, hmark hm, hplus,
        scan_exponent (.inr rfl) rfl h hrest]
  | minus hm h =>
      have hminus (cs : List Char) :
          (number { part := .mark, negative, whole, fraction }).scan ('-' :: cs) =
            (number { part := .sign, negative, whole, fraction, lowers := true }).scan cs := rfl
      rw [List.cons_append, List.cons_append, hmark hm, hminus,
        scan_exponent (.inr rfl) rfl h hrest]

/-- However a number is spelled, it spells its numeral. -/
theorem spells_number {cs : List Char} {n : Numeral} (h : n.Spelling cs) :
    Spells cs [.number n] := by
  obtain @⟨negative, whole, fraction, point, power, exponent, hwhole, hpoint, hpower⟩ := h
  intro rest hrest
  obtain ⟨part, hpart, hscan⟩ := scan_whole hwhole negative
  obtain ⟨part', hpart', hscan'⟩ := scan_fraction hpoint hpart negative whole.reverse
  rw [List.append_assoc, List.append_assoc, hscan, hscan',
    scan_power hpower hpart' negative _ _ hrest, List.reverse_reverse, List.reverse_reverse]
  rfl

end Mode

/-- The numeral of a number without sign. -/
def Numeral.ofNat (n : Nat) : Numeral := ⟨false, Nat.toDigits 10 n, [], none⟩

/-- The first digit of a number is no zero, unless the number is. -/
theorem head?_toDigits {n : Nat} (hn : n ≠ 0) : (Nat.toDigits 10 n).head? ≠ some '0' := by
  induction n using Nat.strongRecOn with
  | ind n ih =>
      by_cases hlt : n < 10
      · have hall : ∀ m : Fin 10, m.val ≠ 0 → Nat.digitChar m ≠ '0' := by decide
        rw [Nat.toDigits_of_lt_base hlt]
        simpa using hall ⟨n, hlt⟩ hn
      · rw [Nat.toDigits_of_base_le (by decide) (by omega),
          List.head?_append_of_ne_nil _ Nat.toDigits_ne_nil]
        exact ih (n / 10) (by omega) (by omega)

/-- A number is spelled as it is written. -/
theorem Numeral.spelling_writeWord (n : UInt64) :
    (Numeral.ofNat n.toNat).Spelling (writeWord n).toList := by
  have htext : (writeWord n).toList = Nat.toDigits 10 n.toNat := Nat.toList_repr
  have hwhole : WholeDigits (Nat.toDigits 10 n.toNat) := by
    by_cases hn : n.toNat = 0
    · rw [hn]
      exact .inl rfl
    · refine .inr ⟨⟨Nat.toDigits_ne_nil, fun x hx => ?_⟩, head?_toDigits hn⟩
      exact Nat.isDigit_of_mem_toDigits (by decide) (by decide) hx
  have hspelling : Spelling _ ⟨false, _, _, _⟩ := .mk hwhole .absent .absent
  simpa [htext, ofNat] using hspelling

end ShardedDelivery.Json
