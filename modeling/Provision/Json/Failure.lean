/-!
Why and where JSON text cannot be read.

A reader reports the problem together with the text that is still unread and how many
bytes past that place the report points; the line and column follow from these and the
whole text (`Failure.position`). Lines end at a line feed and columns count bytes, so a
report may point into the middle of a character.
-/

namespace Provision.Json

inductive Problem where
  | endInValue
  | endInList
  | endInObject
  | endInString
  | expectedColon
  | expectedListCommaOrEnd
  | expectedObjectCommaOrEnd
  | expectedIdent
  | expectedValue
  | invalidEscape
  | invalidNumber
  | numberOutOfRange
  | controlCharacter
  | keyMustBeString
  | loneSurrogate
  | unexpectedEndOfHexEscape
  | trailingComma
  | trailingCharacters
  | recursionLimit
deriving DecidableEq, Repr

def Problem.message : Problem → String
  | .endInValue => "EOF while parsing a value"
  | .endInList => "EOF while parsing a list"
  | .endInObject => "EOF while parsing an object"
  | .endInString => "EOF while parsing a string"
  | .expectedColon => "expected `:`"
  | .expectedListCommaOrEnd => "expected `,` or `]`"
  | .expectedObjectCommaOrEnd => "expected `,` or `\x7d`"
  | .expectedIdent => "expected ident"
  | .expectedValue => "expected value"
  | .invalidEscape => "invalid escape"
  | .invalidNumber => "invalid number"
  | .numberOutOfRange => "number out of range"
  | .controlCharacter => "control character (\\u0000-\\u001F) found while parsing a string"
  | .keyMustBeString => "key must be a string"
  | .loneSurrogate => "lone leading surrogate in hex escape"
  | .unexpectedEndOfHexEscape => "unexpected end of hex escape"
  | .trailingComma => "trailing comma"
  | .trailingCharacters => "trailing characters"
  | .recursionLimit => "recursion limit exceeded"

/-- A problem at a place: `ahead` bytes into the unread text. -/
structure Failure where
  problem : Problem
  unread : List Char
  ahead : Nat
deriving DecidableEq, Repr

/-- Report at the next unread character. -/
def Failure.here (problem : Problem) (unread : List Char) : Failure := ⟨problem, unread, 1⟩

/-- Report behind everything read so far. -/
def Failure.behind (problem : Problem) (unread : List Char) : Failure := ⟨problem, unread, 0⟩

/-- A place in a text. Lines count from one; the column is the number of bytes of
the line up to the place. -/
structure Position where
  line : Nat
  column : Nat
deriving DecidableEq, Repr

def bytes (text : List Char) : List UInt8 := text.flatMap String.utf8EncodeChar

def Position.after (read : List UInt8) : Position :=
  { line := read.count 10 + 1
    column := (read.reverse.takeWhile (· != 10)).length }

/-- Where in the text the failure points; never beyond the end of the text. -/
def Failure.position (failure : Failure) (text : List Char) : Position :=
  let all := bytes text
  .after (all.take (all.length - (bytes failure.unread).length + failure.ahead))

def Position.locate (position : Position) (message : String) : String :=
  s!"{message} at line {position.line} column {position.column}"

def Failure.report (failure : Failure) (text : String) : String :=
  (failure.position text.toList).locate failure.problem.message

end Provision.Json
