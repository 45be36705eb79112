import Mathlib.Data.List.Forall2
import ShardedDelivery.Json.Tree

/-! # The grammar of JSON

How texts are put together from characters, apart from any scanner, and what strings and numbers
in them mean. A phrase may be spelled in many ways: with space around its parts, and with escapes
in place of the characters of a string. -/

namespace ShardedDelivery.Json

/-! ## Strings -/

/-- A hexadecimal digit of this value, in either case. -/
def HexDigit (c : Char) (value : Nat) : Prop :=
  value < 16 ∧ (c = value.digitChar ∨ c = value.digitChar.toUpper)

/-- The letters of short escapes, and the characters that they stand for. -/
def shortEscapes : List (Char × Char) := [
  ('"', '"'), ('\\', '\\'), ('/', '/'), ('b', '\x08'), ('f', '\x0c'), ('n', '\n'), ('r', '\r'),
  ('t', '\t')]

/-- How a piece of a string is spelled. -/
inductive Piece.Spelling : List Char → Piece → Prop where
  | plain {c : Char} (hcontrol : ¬ c < ' ') (hquote : c ≠ '"') (hslash : c ≠ '\\') :
      Spelling [c] (.plain c)
  | short {letter c : Char} (h : (letter, c) ∈ shortEscapes) : Spelling ['\\', letter] (.plain c)
  | unit {a b c d : Char} {i j k l : Nat} (ha : HexDigit a i) (hb : HexDigit b j)
      (hc : HexDigit c k) (hd : HexDigit d l) :
      Spelling ['\\', 'u', a, b, c, d] (.unit (16 * (16 * (16 * i + j) + k) + l))

/-- How a string is spelled, with its quotes. -/
def Literal.Spelling (cs : List Char) (l : Literal) : Prop :=
  ∃ css, List.Forall₂ Piece.Spelling css l ∧ cs = '"' :: css.flatten ++ ['"']

/-- What a literal means. A character beyond 16 bits is a pair of units. -/
inductive Literal.Denotes : Literal → List Char → Prop where
  | nil : Denotes [] []
  | plain {l : Literal} {cs : List Char} (c : Char) (h : Denotes l cs) :
      Denotes (.plain c :: l) (c :: cs)
  | unit {l : Literal} {cs : List Char} (c : Char) (h : Denotes l cs) :
      Denotes (.unit c.toNat :: l) (c :: cs)
  | pair {l : Literal} {cs : List Char} {c : Char} {high low : Nat} (hhigh : high < 0x400)
      (hlow : low < 0x400) (hc : c.toNat = 0x10000 + 0x400 * high + low) (h : Denotes l cs) :
      Denotes (.unit (0xD800 + high) :: .unit (0xDC00 + low) :: l) (c :: cs)

/-! ## Numbers -/

/-- One digit or more. -/
def Digits (cs : List Char) : Prop := cs ≠ [] ∧ ∀ c ∈ cs, c.isDigit

/-- A zero, or digits that do not start with one. -/
def WholeDigits (cs : List Char) : Prop := cs = ['0'] ∨ Digits cs ∧ cs.head? ≠ some '0'

/-- How the digits of a fraction are spelled, if there are any. -/
inductive FractionSpelling : List Char → List Char → Prop where
  | absent : FractionSpelling [] []
  | point {digits : List Char} (h : Digits digits) : FractionSpelling ('.' :: digits) digits

/-- How an exponent is spelled, and whether it is negative. -/
inductive ExponentSpelling : List Char → Option (Bool × List Char) → Prop where
  | absent : ExponentSpelling [] none
  | bare {mark : Char} {digits : List Char} (hmark : mark = 'e' ∨ mark = 'E')
      (h : Digits digits) : ExponentSpelling (mark :: digits) (some (false, digits))
  | plus {mark : Char} {digits : List Char} (hmark : mark = 'e' ∨ mark = 'E')
      (h : Digits digits) : ExponentSpelling (mark :: '+' :: digits) (some (false, digits))
  | minus {mark : Char} {digits : List Char} (hmark : mark = 'e' ∨ mark = 'E')
      (h : Digits digits) : ExponentSpelling (mark :: '-' :: digits) (some (true, digits))

/-- How a number is spelled. -/
inductive Numeral.Spelling : List Char → Numeral → Prop where
  | mk {negative : Bool} {whole fraction point power : List Char}
      {exponent : Option (Bool × List Char)} (hwhole : WholeDigits whole)
      (hpoint : FractionSpelling point fraction) (hpower : ExponentSpelling power exponent) :
      Spelling ((if negative then ['-'] else []) ++ whole ++ point ++ power)
        ⟨negative, whole, fraction, exponent⟩

/-! ## Values -/

/-- Nothing but space between tokens. -/
def Blank (cs : List Char) : Prop := ∀ c ∈ cs, c ∈ [' ', '\t', '\n', '\r']

/-- What characters may be: a value, or a part of one. -/
inductive Phrase where
  | value (t : Tree)
  /-- A value with space around it. -/
  | element (t : Tree)
  /-- Elements with commas between them. -/
  | items (ts : List Tree)
  /-- A key and a value, with a colon between them. -/
  | member (key : Literal) (t : Tree)
  /-- Members with commas between them. -/
  | members (ms : List (Literal × Tree))

/-- How phrases are spelled. -/
inductive Derives : List Char → Phrase → Prop where
  | null : Derives ['n', 'u', 'l', 'l'] (.value .null)
  | true : Derives ['t', 'r', 'u', 'e'] (.value (.bool true))
  | false : Derives ['f', 'a', 'l', 's', 'e'] (.value (.bool false))
  | number {cs : List Char} {n : Numeral} (h : n.Spelling cs) : Derives cs (.value (.number n))
  | text {cs : List Char} {l : Literal} (h : l.Spelling cs) : Derives cs (.value (.text l))
  | emptyArray {blank : List Char} (h : Blank blank) :
      Derives ('[' :: blank ++ [']']) (.value (.array [] .closed))
  | array {cs : List Char} {ts : List Tree} (h : Derives cs (.items ts)) :
      Derives ('[' :: cs ++ [']']) (.value (.array ts .closed))
  | emptyObject {blank : List Char} (h : Blank blank) :
      Derives ('\x7b' :: blank ++ ['\x7d']) (.value (.object [] .closed))
  | object {cs : List Char} {ms : List (Literal × Tree)} (h : Derives cs (.members ms)) :
      Derives ('\x7b' :: cs ++ ['\x7d']) (.value (.object ms .closed))
  | element {before cs after : List Char} {t : Tree} (hbefore : Blank before)
      (h : Derives cs (.value t)) (hafter : Blank after) :
      Derives (before ++ cs ++ after) (.element t)
  | item {cs : List Char} {t : Tree} (h : Derives cs (.element t)) : Derives cs (.items [t])
  | moreItems {cs cs' : List Char} {t : Tree} {ts : List Tree} (h : Derives cs (.element t))
      (hmore : Derives cs' (.items ts)) : Derives (cs ++ ',' :: cs') (.items (t :: ts))
  | keyed {before name after cs : List Char} {key : Literal} {t : Tree} (hbefore : Blank before)
      (hkey : key.Spelling name) (hafter : Blank after) (h : Derives cs (.element t)) :
      Derives (before ++ name ++ after ++ ':' :: cs) (.member key t)
  | member {cs : List Char} {key : Literal} {t : Tree} (h : Derives cs (.member key t)) :
      Derives cs (.members [(key, t)])
  | moreMembers {cs cs' : List Char} {key : Literal} {t : Tree} {ms : List (Literal × Tree)}
      (h : Derives cs (.member key t)) (hmore : Derives cs' (.members ms)) :
      Derives (cs ++ ',' :: cs') (.members ((key, t) :: ms))

/-! ## Texts and what they mean -/

/-- The whole text is this value, with space around it. -/
def TextOf (text : String) (t : Tree) : Prop := Derives text.toList (.element t)

namespace Tree

/-- The value is this number, without a sign, a fraction or an exponent. -/
def IsWord (t : Tree) (n : UInt64) : Prop :=
  ∃ digits, t = .number ⟨false, digits, [], none⟩ ∧ Nat.ofDigitChars 10 digits 0 = n.toNat

/-- The value is this string. -/
def IsText (t : Tree) (s : String) : Prop := ∃ l, t = .text l ∧ l.Denotes s.toList

end Tree

/-- The keys of these members mean these names. -/
def NamedBy (members : List (Literal × Tree)) (named : List (String × Tree)) : Prop :=
  List.Forall₂ (fun member name => member.1.Denotes name.1.toList ∧ member.2 = name.2) members named

end ShardedDelivery.Json
