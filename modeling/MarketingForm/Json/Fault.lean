/-!
# Faults in JSON texts

A fault is a cause and the part of the text that had not been read when it was found. Positions
count lines from one and the bytes of a line. Some causes lie in the last byte that was read, others
in the byte that comes next.
-/

namespace MarketingForm.Json

/-- What is wrong with a text. -/
inductive Cause where
  | eofInList
  | eofInObject
  | eofInString
  | eofInValue
  | expectedColon
  | expectedListEnd
  | expectedObjectEnd
  | expectedIdent
  | expectedValue
  | invalidEscape
  | invalidNumber
  | numberOutOfRange
  | controlCharacter
  | keyNotString
  | loneSurrogate
  | trailingComma
  | trailingCharacters
  | brokenSurrogatePair
  /-- A value of one type where another was expected. -/
  | invalidType (found expected : String)
  | invalidLength (count : Nat) (expected : String)
  | duplicateField (name : String)
  | missingField (name : String)
deriving DecidableEq

def Cause.message : Cause → String
  | eofInList => "EOF while parsing a list"
  | eofInObject => "EOF while parsing an object"
  | eofInString => "EOF while parsing a string"
  | eofInValue => "EOF while parsing a value"
  | expectedColon => "expected `:`"
  | expectedListEnd => "expected `,` or `]`"
  | expectedObjectEnd => "expected `,` or `\x7d`"
  | expectedIdent => "expected ident"
  | expectedValue => "expected value"
  | invalidEscape => "invalid escape"
  | invalidNumber => "invalid number"
  | numberOutOfRange => "number out of range"
  | controlCharacter => "control character (\\u0000-\\u001F) found while parsing a string"
  | keyNotString => "key must be a string"
  | loneSurrogate => "lone leading surrogate in hex escape"
  | trailingComma => "trailing comma"
  | trailingCharacters => "trailing characters"
  | brokenSurrogatePair => "unexpected end of hex escape"
  | invalidType found expected => "invalid type: " ++ found ++ ", expected " ++ expected
  | invalidLength count expected => "invalid length " ++ toString count ++ ", expected " ++ expected
  | duplicateField name => "duplicate field `" ++ name ++ "`"
  | missingField name => "missing field `" ++ name ++ "`"

/-- A line, counted from one, and the number of bytes before a place in it. -/
structure Place where
  line : Nat
  column : Nat
deriving DecidableEq

namespace Place

def start : Place := ⟨1, 0⟩

/-- The place after a character. -/
def after (p : Place) (c : Char) : Place :=
  if c = '\n' then ⟨p.line + 1, 0⟩ else ⟨p.line, p.column + c.utf8Size⟩

/-- The place after the first `n` bytes of a text, which may end inside a character. -/
def afterBytes (p : Place) (n : Nat) : List Char → Place
  | [] => p
  | c :: r =>
    if c.utf8Size ≤ n then (p.after c).afterBytes (n - c.utf8Size) r else ⟨p.line, p.column + n⟩

end Place

/-- A cause and what was left to read. -/
structure Fault where
  cause : Cause
  rest : List Char
  /-- How many bytes of the rest the position counts as read. -/
  ahead : Nat
deriving DecidableEq

namespace Fault

/-- Where the fault lies in the text that was read. -/
def place (f : Fault) (text : List Char) : Place :=
  let before := (text.take (text.length - f.rest.length)).foldl Place.after .start
  before.afterBytes f.ahead f.rest

def message (f : Fault) (text : List Char) : String :=
  let p := f.place text
  f.cause.message ++ " at line " ++ toString p.line ++ " column " ++ toString p.column

end Fault

/-- A cause that lies in what has been read. -/
def failBehind {α : Type} (c : Cause) (rest : List Char) : Except Fault α := .error ⟨c, rest, 0⟩

/-- A cause that lies in the next byte. -/
def failAhead {α : Type} (c : Cause) (rest : List Char) : Except Fault α := .error ⟨c, rest, 1⟩

end MarketingForm.Json
