import ShardedDelivery.Json.Literal
import ShardedDelivery.Json.Numeral
import ShardedDelivery.Text.Hex

/-! # JSON tokens

The scanner is a machine that reads one character at a time. It stops at the first character
that fits no token, or in the middle of a token when the text ends, and its last token says what
is wrong. Reading a value and skipping over it do not always name the same flaw. -/

namespace ShardedDelivery.Json

/-- Why a text is not well formed: something stands where it cannot, or something is missing at
the end. -/
inductive Flaw where
  | malformed
  | cutShort
deriving DecidableEq, Repr

/-- A token of a text. -/
inductive Token where
  | openArray
  | closeArray
  | openObject
  | closeObject
  | comma
  | colon
  | null
  | bool (value : Bool)
  | number (n : Numeral)
  | text (l : Literal)
  /-- A string that breaks off, with the pieces before that. -/
  | cutText (before : Literal) (flaw : Flaw)
  /-- Any other token that breaks off, or a character that fits none. -/
  | broken (read skipped : Flaw)
deriving DecidableEq, Repr

namespace Token

/-- What is wrong with a token when a value is skipped. -/
def skipFlaw : Token → Flaw
  | cutText _ flaw => flaw
  | broken _ skipped => skipped
  | _ => .malformed

/-- What is wrong with a token when a value is read. -/
def readFlaw : Token → Flaw
  | cutText before flaw => if (Literal.readSoFar before).isNone then .malformed else flaw
  | broken read _ => read
  | _ => .malformed

/-- What is wrong with a token where only a string may stand. -/
def textFlaw : Token → Flaw
  | cutText before flaw => readFlaw (.cutText before flaw)
  | _ => .malformed

end Token

/-- The part of a number that was read last. -/
inductive Part where
  | minus
  | zero
  | whole
  | point
  | fraction
  | mark
  | sign
  | exponent
deriving DecidableEq, Repr

/-- A number so far; the digits of each part stand in reverse. -/
structure Draft where
  part : Part
  negative : Bool := false
  whole : List Char := []
  fraction : List Char := []
  lowers : Bool := false
  exponent : List Char := []
deriving DecidableEq, Repr

namespace Draft

/-- The numeral, when it may end here. -/
def numeral? (d : Draft) : Option Numeral :=
  let numeral exponent : Numeral := ⟨d.negative, d.whole.reverse, d.fraction.reverse, exponent⟩
  match d.part with
  | .zero | .whole | .fraction => some (numeral none)
  | .exponent => some (numeral (some (d.lowers, d.exponent.reverse)))
  | _ => none

/-- The draft with one more character, if it can go on with that. -/
def extend? (d : Draft) (c : Char) : Option Draft :=
  match d.part with
  | .minus =>
      if c = '0' then some { d with part := .zero, whole := [c] }
      else if c.isDigit then some { d with part := .whole, whole := [c] }
      else none
  | .zero => afterWhole
  | .whole => if c.isDigit then some { d with whole := c :: d.whole } else afterWhole
  | .point => if c.isDigit then some { d with part := .fraction, fraction := [c] } else none
  | .fraction => if c.isDigit then some { d with fraction := c :: d.fraction } else afterFraction
  | .mark =>
      if c = '+' then some { d with part := .sign }
      else if c = '-' then some { d with part := .sign, lowers := true }
      else digit
  | .sign => digit
  | .exponent => digit
where
  afterFraction : Option Draft :=
    if c = 'e' ∨ c = 'E' then some { d with part := .mark } else none
  afterWhole : Option Draft :=
    if c = '.' then some { d with part := .point } else afterFraction
  digit : Option Draft :=
    if c.isDigit then some { d with part := .exponent, exponent := c :: d.exponent } else none

/-- A number that starts with zero is over after it, so no digit may follow. -/
def mayEndBefore (d : Draft) (c : Char) : Bool := !(d.part = .zero && c.isDigit)

end Draft

/-- Where the scanner stands. Pieces stand in reverse. -/
inductive Mode where
  | between
  | word (next : Char) (left : List Char) (token : Token)
  | number (d : Draft)
  | text (pieces : Literal)
  | escape (pieces : Literal)
  /-- After `\u`: the bytes since then, and what they spell if all were digits. -/
  | unit (pieces : Literal) (bytes : Nat) (value : Option Nat)
  | stopped
deriving DecidableEq, Repr

namespace Mode

/-- Stops at a character that fits no token. -/
def misfit : List Token × Mode := ([.broken .malformed .malformed], stopped)

/-- Stops inside a string. -/
def badText (pieces : Literal) : List Token × Mode :=
  ([.cutText pieces.reverse .malformed], stopped)

/-- The first character of a token, or one between tokens. -/
def start (c : Char) : List Token × Mode :=
  if c = ' ' ∨ c = '\t' ∨ c = '\n' ∨ c = '\r' then ([], between)
  else if c = '[' then ([.openArray], between)
  else if c = ']' then ([.closeArray], between)
  else if c = '\x7b' then ([.openObject], between)
  else if c = '\x7d' then ([.closeObject], between)
  else if c = ',' then ([.comma], between)
  else if c = ':' then ([.colon], between)
  else if c = '"' then ([], text [])
  else if c = 'n' then ([], word 'u' ['l', 'l'] .null)
  else if c = 't' then ([], word 'r' ['u', 'e'] (.bool true))
  else if c = 'f' then ([], word 'a' ['l', 's', 'e'] (.bool false))
  else if c = '-' then ([], number { part := .minus, negative := true })
  else if c = '0' then ([], number { part := .zero, whole := [c] })
  else if c.isDigit then ([], number { part := .whole, whole := [c] })
  else misfit

/-- The character that an escape of one letter stands for. -/
def escaped? (c : Char) : Option Char :=
  if c = '"' ∨ c = '\\' ∨ c = '/' then some c
  else if c = 'b' then some '\x08'
  else if c = 'f' then some '\x0c'
  else if c = 'n' then some '\n'
  else if c = 'r' then some '\r'
  else if c = 't' then some '\t'
  else none

/-- The tokens that a character completes, and where the scanner stands after it. -/
def step : Mode → Char → List Token × Mode
  | between, c => start c
  | word next left token, c =>
      if c ≠ next then misfit
      else
        match left with
        | [] => ([token], between)
        | next :: left => ([], word next left token)
  | number d, c =>
      match d.extend? c, d.numeral? with
      | some d, _ => ([], number d)
      | none, some n =>
          if d.mayEndBefore c then (start c).map (.number n :: ·) id else misfit
      | none, none => misfit
  | text pieces, c =>
      if c = '"' then ([.text pieces.reverse], between)
      else if c = '\\' then ([], escape pieces)
      else if c < ' ' then badText pieces
      else ([], text (.plain c :: pieces))
  | escape pieces, c =>
      if c = 'u' then ([], unit pieces 0 (some 0))
      else
        match escaped? c with
        | some e => ([], text (.plain e :: pieces))
        | none => badText pieces
  | unit pieces bytes value, c =>
      let bytes := bytes + c.utf8Size
      let value := value.bind (Hex.numberFrom? · [c])
      if bytes < 4 then ([], unit pieces bytes value)
      else
        match value with
        | some v => ([], text (.unit v :: pieces))
        | none => badText pieces
  | stopped, _ => ([], stopped)

/-- The last token, when the text ends. -/
def finish : Mode → List Token
  | between | stopped => []
  | word .. => [.broken .cutShort .cutShort]
  | number d =>
      match d.numeral? with
      | some n => [.number n]
      | none => [.broken .cutShort .malformed]
  | text pieces | escape pieces | unit pieces _ _ => [.cutText pieces.reverse .cutShort]

/-- Scans the rest of a text. -/
def scan (m : Mode) : List Char → List Token
  | [] => m.finish
  | c :: rest => (m.step c).1 ++ scan (m.step c).2 rest

end Mode

/-- The tokens of a text. -/
def tokens (text : String) : List Token := Mode.between.scan text.toList

end ShardedDelivery.Json
