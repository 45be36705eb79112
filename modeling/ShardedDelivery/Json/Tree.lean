import ShardedDelivery.Json.Token

/-! # JSON texts as trees

Every text has a tree. It holds the values as far as the text is well formed, and where that
ends it says how. So a reader that walks a tree from the left meets the first problem of the
text first, be it a value of the wrong type or a flaw of the text. -/

namespace ShardedDelivery.Json

/-- How an array or an object ends. -/
inductive Closing where
  | closed
  /-- Neither a comma nor the closing bracket follows, or something further in breaks off. -/
  | stopped (flaw : Flaw)
  /-- A key is not followed by a colon. -/
  | afterKey (key : Literal) (flaw : Flaw)
  /-- This, or the end of the text, stands in place of a key. -/
  | notKey (token : Option Token)
deriving DecidableEq, Repr

/-- A value, or the attempt at one. -/
inductive Tree where
  | null
  | bool (value : Bool)
  | number (n : Numeral)
  | text (l : Literal)
  | array (items : List Tree) (closing : Closing)
  | object (members : List (Literal × Tree)) (closing : Closing)
  /-- No value stands here, but this token or the end of the text. -/
  | broken (token : Option Token)

/-- What is wrong with a token, or with the end of the text, when a value is skipped. -/
def skipFlaw (token : Option Token) : Flaw := (token.map Token.skipFlaw).getD .cutShort

/-- What is wrong with a token, or with the end of the text, when a value is read. -/
def readFlaw (token : Option Token) : Flaw := (token.map Token.readFlaw).getD .cutShort

/-- What is wrong with a token, or with the end of the text, where only a string may stand. -/
def textFlaw (token : Option Token) : Flaw := (token.map Token.textFlaw).getD .cutShort

/-- What is wrong at the end, when an object or array is skipped. -/
def Closing.skipFlaw? : Closing → Option Flaw
  | closed => none
  | stopped flaw => some flaw
  | afterKey _ flaw => some flaw
  | notKey none => some .cutShort
  | notKey (some (.cutText _ flaw)) => some flaw
  | notKey (some _) => some .malformed

/-- What is wrong with a value, when it is skipped. Everything before its end is in order. -/
def Tree.skipFlaw? : Tree → Option Flaw
  | array _ closing => closing.skipFlaw?
  | object _ closing => closing.skipFlaw?
  | broken token => some (skipFlaw token)
  | _ => none

/-- An array or an object whose next value is being read. What came before stands in reverse. -/
inductive Frame where
  | items (before : List Tree)
  | members (before : List (Literal × Tree)) (key : Literal)

/-- What comes next. -/
inductive Position where
  | value
  /-- A value, or the end of an empty array. -/
  | firstItem
  /-- A key, or the end of an empty object. -/
  | firstKey
  | key (before : List (Literal × Tree))
  | colon (before : List (Literal × Tree)) (key : Literal)
  /-- What follows a value. -/
  | after (value : Tree)

/-- Where a token leads: further, or to the end of what is well formed. -/
inductive Move where
  | go (position : Position) (frames : List Frame)
  | halt (tree : Tree)

namespace Frame

/-- The whole tree, when the text breaks off inside these frames, after this value. -/
def stop (flaw : Flaw) : List Frame → Tree → Tree
  | [], t => t
  | items before :: frames, t => stop flaw frames (.array (t :: before).reverse (.stopped flaw))
  | members before key :: frames, t =>
      stop flaw frames (.object ((key, t) :: before).reverse (.stopped flaw))

/-- The whole tree, when no value stands where one should. -/
def stopAt (frames : List Frame) (token : Option Token) : Tree :=
  stop (skipFlaw token) frames (.broken token)

/-- The whole tree, when an object breaks off at a key. -/
def stopObject (frames : List Frame) (before : List (Literal × Tree)) (closing : Closing) : Tree :=
  stop (closing.skipFlaw?.getD .malformed) frames (.object before.reverse closing)

end Frame

namespace Position

/-- A token where a value should start. -/
def value? (frames : List Frame) : Token → Move
  | .null => .go (.after .null) frames
  | .bool b => .go (.after (.bool b)) frames
  | .number n => .go (.after (.number n)) frames
  | .text l => .go (.after (.text l)) frames
  | .openArray => .go .firstItem (.items [] :: frames)
  | .openObject => .go .firstKey frames
  | token => .halt (Frame.stopAt frames (some token))

/-- A token where a key should stand. -/
def key? (frames : List Frame) (before : List (Literal × Tree)) : Token → Move
  | .text l => .go (.colon before l) frames
  | token => .halt (Frame.stopObject frames before (.notKey (some token)))

/-- A token after a value that stands in a frame. -/
def follow (t : Tree) : List Frame → Token → Move
  | .items before :: frames, .comma => .go .value (.items (t :: before) :: frames)
  | .items before :: frames, .closeArray =>
      .go (.after (.array (t :: before).reverse .closed)) frames
  | .members before name :: frames, .comma => .go (.key ((name, t) :: before)) frames
  | .members before name :: frames, .closeObject =>
      .go (.after (.object ((name, t) :: before).reverse .closed)) frames
  | frames, _ => .halt (Frame.stop .malformed frames t)

/-- Where a token leads. -/
def step : Position → List Frame → Token → Move
  | value, frames, token => value? frames token
  | firstItem, .items [] :: frames, .closeArray => .go (.after (.array [] .closed)) frames
  | firstItem, frames, token => value? frames token
  | firstKey, frames, .closeObject => .go (.after (.object [] .closed)) frames
  | firstKey, frames, token => key? frames [] token
  | key before, frames, token => key? frames before token
  | colon before name, frames, .colon => .go .value (.members before name :: frames)
  | colon before name, frames, _ =>
      .halt (Frame.stopObject frames before (.afterKey name .malformed))
  | after t, frames, token => follow t frames token

/-- The whole tree, when the text ends. -/
def finish : Position → List Frame → Tree
  | value, frames | firstItem, frames => Frame.stopAt frames none
  | firstKey, frames => Frame.stopObject frames [] (.notKey none)
  | key before, frames => Frame.stopObject frames before (.notKey none)
  | colon before name, frames => Frame.stopObject frames before (.afterKey name .cutShort)
  | after t, frames => Frame.stop .cutShort frames t

/-- Reads a value from tokens, and gives the tokens after it. -/
def build : Position → List Frame → List Token → Tree × List Token
  | after t, [], rest => (t, rest)
  | position, frames, [] => (position.finish frames, [])
  | position, frames, token :: rest =>
      match position.step frames token with
      | .go position frames => build position frames rest
      | .halt tree => (tree, rest)

end Position

/-- The tree of a text, and the tokens that are left over. -/
def parse (text : String) : Tree × List Token := Position.value.build [] (tokens text)

end ShardedDelivery.Json
