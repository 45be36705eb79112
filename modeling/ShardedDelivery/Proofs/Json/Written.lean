import ShardedDelivery.Json.Schema
import ShardedDelivery.Proofs.Json.Token

/-! # Reading what is written

Tokens that build trees can be put together to objects. What is written is read as one tree, and
nothing is left over; strings and numbers are read as they were. -/

namespace ShardedDelivery.Json

/-! ## Trees -/

/-- Wherever a value should start, the tokens build this tree. -/
def Builds (ts : List Token) (t : Tree) : Prop :=
  ∀ frames rest,
    Position.value.build frames (ts ++ rest) = (Position.after t).build frames rest

/-- The tokens are a key and a colon, and build a value. -/
def BuildsMember (ts : List Token) (member : Literal × Tree) : Prop :=
  ∃ later, ts = .text member.1 :: .colon :: later ∧ Builds later member.2

namespace Builds

theorem null : Builds [.null] .null := fun _ _ => rfl

theorem bool (b : Bool) : Builds [.bool b] (.bool b) := fun _ _ => rfl

theorem number (n : Numeral) : Builds [.number n] (.number n) := fun _ _ => rfl

theorem text (l : Literal) : Builds [.text l] (.text l) := fun _ _ => rfl

/-- What builds a value does not start with the end of an array. -/
theorem build_firstItem {ts : List Token} {t : Tree} (h : Builds ts t) (frames : List Frame)
    (rest : List Token) :
    Position.firstItem.build (.items [] :: frames) (ts ++ rest) =
      Position.value.build (.items [] :: frames) (ts ++ rest) := by
  cases ts with
  | nil =>
      -- such a value would have to be there whatever follows
      have hnull := congrArg Prod.fst (h [] [.null])
      have hbool := congrArg Prod.fst (h [] [.bool true])
      simp [Position.build, Position.step, Position.value?] at hnull hbool
      exact absurd (hnull.trans hbool.symm) (by simp)
  | cons token ts =>
      by_cases htoken : token = .closeArray
      · have hend := congrArg Prod.fst (h [.items []] [])
        simp [htoken, Position.build, Position.step, Position.value?, Position.finish,
          Frame.stopAt, Frame.stop, skipFlaw, Token.skipFlaw] at hend
      · cases token <;> first | contradiction | rfl

/-- The items of an array that are left, with the bracket that closes it. -/
theorem build_item {tss : List (List Token)} {items : List Tree}
    (h : List.Forall₂ Builds tss items) (hne : items ≠ []) (before : List Tree)
    (frames : List Frame) (rest : List Token) :
    Position.value.build (.items before :: frames)
        ([.comma].intercalate tss ++ .closeArray :: rest) =
      (Position.after (.array (before.reverse ++ items) .closed)).build frames rest := by
  induction h generalizing before with
  | nil => contradiction
  | @cons ts t tss items hvalue hitems ih =>
      cases hitems with
      | nil =>
          rw [List.intercalate_singleton, hvalue]
          simp [Position.build, Position.step, Position.follow]
      | cons hnext hitems =>
          rw [List.intercalate_cons_cons, List.append_assoc, List.append_assoc, hvalue]
          have hrest := ih (by simp) (t :: before)
          rw [List.reverse_cons, List.append_assoc] at hrest
          exact hrest

theorem array {tss : List (List Token)} {items : List Tree} (h : List.Forall₂ Builds tss items) :
    Builds (.openArray :: [.comma].intercalate tss ++ [.closeArray]) (.array items .closed) := by
  intro frames rest
  have hopen (ts : List Token) : Position.value.build frames (.openArray :: ts) =
      Position.firstItem.build (.items [] :: frames) ts := rfl
  simp only [List.cons_append, List.append_assoc, List.nil_append, hopen]
  cases h with
  | nil => rfl
  | @cons ts t tss items hvalue hitems =>
      have hitem := build_item (.cons hvalue hitems) (by simp) [] frames rest
      rw [List.reverse_nil, List.nil_append] at hitem
      rw [← hitem]
      cases hitems with
      | nil =>
          rw [List.intercalate_singleton]
          exact hvalue.build_firstItem frames _
      | cons hnext hitems =>
          rw [List.intercalate_cons_cons, List.append_assoc, List.append_assoc]
          exact hvalue.build_firstItem frames _

/-- The members of an object that are left, with the bracket that closes it. -/
theorem build_key {tss : List (List Token)} {members : List (Literal × Tree)}
    (h : List.Forall₂ BuildsMember tss members) (hne : members ≠ [])
    (before : List (Literal × Tree)) (frames : List Frame) (rest : List Token) :
    (Position.key before).build frames ([.comma].intercalate tss ++ .closeObject :: rest) =
      (Position.after (.object (before.reverse ++ members) .closed)).build frames rest := by
  induction h generalizing before with
  | nil => contradiction
  | @cons ts member tss members hmember hmembers ih =>
      obtain ⟨later, rfl, hvalue⟩ := hmember
      have hkey (ts' : List Token) :
          (Position.key before).build frames (.text member.1 :: .colon :: (later ++ ts')) =
            (Position.after member.2).build (.members before member.1 :: frames) ts' :=
        hvalue (.members before member.1 :: frames) ts'
      cases hmembers with
      | nil =>
          simp only [List.intercalate_singleton, List.cons_append, hkey]
          simp [Position.build, Position.step, Position.follow]
      | cons hnext hmembers =>
          rw [List.intercalate_cons_cons]
          simp only [List.cons_append, List.append_assoc, hkey, List.nil_append]
          have hrest := ih (by simp) (member :: before)
          rw [List.reverse_cons, List.append_assoc] at hrest
          exact hrest

theorem object {tss : List (List Token)} {members : List (Literal × Tree)}
    (h : List.Forall₂ BuildsMember tss members) :
    Builds (.openObject :: [.comma].intercalate tss ++ [.closeObject])
      (.object members .closed) := by
  intro frames rest
  cases h with
  | nil => rfl
  | cons hmember hmembers =>
      have hkey := build_key (.cons hmember hmembers) (by simp) [] frames rest
      obtain ⟨later, rfl, -⟩ := hmember
      -- after the bracket, the first key is read as any later one is
      simp only [List.cons_append, List.append_assoc, List.nil_append]
      rcases hmembers with _ | ⟨hnext, hmembers⟩
      · exact hkey
      · rw [List.intercalate_cons_cons] at hkey ⊢
        exact hkey

end Builds

/-! ## Texts -/

/-- The text is this tree, also inside a larger text, unless a number at its end goes on. -/
def Written (text : String) (t : Tree) : Prop := ∃ ts, Spells text.toList ts ∧ Builds ts t

/-- The member is this pair of a key and a value. -/
def WrittenMember (written : String × String) (member : Literal × Tree) : Prop :=
  member.1 = .ofText written.1 ∧ Written written.2 member.2

namespace Written

/-- A whole text is read as its tree, and nothing is left over. -/
theorem parse_eq {text : String} {t : Tree} (h : Written text t) : parse text = (t, []) := by
  obtain ⟨ts, hspells, hbuilds⟩ := h
  have htokens : tokens text = ts := by
    have hscan := hspells [] .nil
    rwa [List.append_nil, show Mode.between.scan [] = [] from rfl, List.append_nil] at hscan
  have hbuild := hbuilds [] []
  rw [List.append_nil] at hbuild
  rw [parse, htokens, hbuild]
  rfl

theorem read_eq {α : Type} {text : String} {t : Tree} (h : Written text t)
    (reader : Tree → Except Fault α) : Json.read reader text = reader t := by
  simp only [Json.read, h.parse_eq]
  cases reader t <;> rfl

theorem text (s : String) : Written (writeText s) (.text (.ofText s)) :=
  ⟨_, (Mode.closes_text (Literal.spelling_writeText s)).spells, .text _⟩

theorem word (n : UInt64) : Written (writeWord n) (.number (.ofNat n.toNat)) :=
  ⟨_, Mode.spells_number (Numeral.spelling_writeWord n), .number _⟩

theorem member {written : String × String} {member : Literal × Tree}
    (h : WrittenMember written member) :
    ∃ ts, Spells (writeText written.1 ++ ":" ++ written.2).toList ts ∧ BuildsMember ts member := by
  obtain ⟨hkey, ts, hspells, hbuilds⟩ := h
  refine ⟨.text member.1 :: .colon :: ts, ?_, ts, rfl, hbuilds⟩
  have hname := (Mode.closes_text (Literal.spelling_writeText written.1)).append Closes.colon
  rw [hkey, String.toList_append, String.toList_append]
  exact hname.append_spells hspells

theorem object {written : List (String × String)} {members : List (Literal × Tree)}
    (h : List.Forall₂ WrittenMember written members) :
    Written (writeObject written) (.object members .closed) := by
  obtain ⟨tss, hspells, hbuilds⟩ : ∃ tss,
      List.Forall₂ Spells
        (written.map fun x => (writeText x.1 ++ ":" ++ x.2).toList) tss ∧
      List.Forall₂ BuildsMember tss members := by
    induction h with
    | nil => exact ⟨[], .nil, .nil⟩
    | cons hmember hmembers ih =>
        obtain ⟨ts, hspells, hbuilds⟩ := member hmember
        obtain ⟨tss, hrest, hbuild⟩ := ih
        exact ⟨ts :: tss, .cons hspells hrest, .cons hbuilds hbuild⟩
  have htext : (writeObject written).toList = ['\x7b'] ++ ([','].intercalate
      (written.map fun x => (writeText x.1 ++ ":" ++ x.2).toList) ++ ['\x7d']) := by
    simp [writeObject, String.toList_intercalate, Function.comp_def]
  refine ⟨_, Closes.spells ?_, .object hbuilds⟩
  rw [htext]
  exact (Spells.intercalate hspells).bracketed .openObject .closeObject .closeObject

end Written

/-! ## Values -/

namespace Literal

theorem readSoFar_unit {u : Nat} (hlead : isLead u = false) (htrail : isTrail u = false)
    (rest : Literal) :
    readSoFar (.unit u :: rest) =
      (readSoFar rest).map fun (cs, unfinished) => (Char.ofNat u :: cs, unfinished) := by
  rcases rest with _ | ⟨_ | _, rest⟩ <;> simp [readSoFar, hlead, htrail]

/-- Half a pair stands for no character. -/
theorem isLead_toNat (c : Char) : isLead c.toNat = false ∧ isTrail c.toNat = false := by
  have hvalid : c.toNat < 0xD800 ∨ 0xDFFF < c.toNat ∧ c.toNat < 0x110000 := c.valid
  simp only [isLead, isTrail, Bool.and_eq_false_imp, decide_eq_true_eq, decide_eq_false_iff_not]
  omega

theorem readSoFar_of_denotes {l : Literal} {cs : List Char} (h : l.Denotes cs) :
    readSoFar l = some (cs, false) := by
  induction h with
  | nil => rfl
  | plain c _ ih => rw [readSoFar, ih, Option.map_some]
  | unit c _ ih =>
      obtain ⟨hlead, htrail⟩ := isLead_toNat c
      rw [readSoFar_unit hlead htrail, ih, Option.map_some, Char.ofNat_toNat]
  | @pair l cs c high low hhigh hlow hc _ ih =>
      have hlead : isLead (0xD800 + high) = true := by simp [isLead]; omega
      have htrail : isTrail (0xDC00 + low) = true := by simp [isTrail]; omega
      have hpair : ofPair (0xD800 + high) (0xDC00 + low) = c := by
        rw [ofPair, Nat.add_sub_cancel_left, Nat.add_sub_cancel_left, Nat.mul_comm high, ← hc,
          Char.ofNat_toNat]
      rw [readSoFar, if_pos hlead, if_pos htrail, ih, Option.map_some, hpair]

/-- A literal is read as what it means. -/
theorem read_of_denotes {l : Literal} {s : String} (h : l.Denotes s.toList) : l.read = .ok s := by
  simp [read, read?, readSoFar_of_denotes h]

/-- A literal means the string that it was written for. -/
theorem denotes_ofText (s : String) : (ofText s).Denotes s.toList := by
  have hchars (cs : List Char) : Denotes (cs.map .ofChar) cs := by
    induction cs with
    | nil => exact .nil
    | cons c cs ih =>
        rw [List.map_cons, Piece.ofChar]
        split
        · exact .unit c ih
        · exact .plain c ih
  exact hchars s.toList

theorem read_ofText (s : String) : (ofText s).read = .ok s := read_of_denotes (denotes_ofText s)

end Literal

namespace Tree

theorem readText_of_isText {t : Tree} {s : String} (h : t.IsText s) : t.readText = .ok s := by
  obtain ⟨l, rfl, hl⟩ := h
  exact Literal.read_of_denotes hl

theorem isText_ofText (s : String) : (text (.ofText s)).IsText s :=
  ⟨_, rfl, Literal.denotes_ofText s⟩

theorem readWord_of_isWord {t : Tree} {n : UInt64} (h : t.IsWord n) (expected : String) :
    t.readWord expected = .ok n := by
  obtain ⟨digits, rfl, hdigits⟩ := h
  have hinteger : Numeral.integer? ⟨false, digits, [], none⟩ = some (n.toNat : Int) := by
    have hlimit : n.toNat < 1 <<< 64 := n.toNat_lt_size
    rw [← hdigits] at hlimit ⊢
    exact if_pos hlimit
  have hfound : Numeral.found ⟨false, digits, [], none⟩ = .ok (.integer n.toNat) := by
    rw [Numeral.found, hinteger]
  simp only [readWord, hfound, bind, Except.bind, if_neg (Int.not_lt.mpr (Int.natCast_nonneg _))]
  rw [Int.toNat_natCast, UInt64.ofNat_toNat]
  rfl

theorem isWord_ofNat (n : UInt64) : (number (.ofNat n.toNat)).IsWord n :=
  ⟨_, rfl, Nat.ofDigitChars_toDigits (by decide) (by decide)⟩

theorem readWord_ofNat (expected : String) (n : UInt64) :
    (number (.ofNat n.toNat)).readWord expected = .ok n :=
  readWord_of_isWord (isWord_ofNat n) expected

end Tree

end ShardedDelivery.Json
