import Phrasebook.Text.Reading

/-!
# Faults of JSON texts

What can be wrong with a text that should be JSON, and how a fault is reported: what was found
missing or out of place, and the line and column.
-/

namespace Phrasebook.Json

/-- What can be wrong with a JSON text. -/
inductive Fault where
  | endInValue
  | endInList
  | endInObject
  | endInString
  | expectedValue
  | expectedWord
  | expectedColon
  | expectedListCommaOrEnd
  | expectedObjectCommaOrEnd
  | keyNotString
  | trailingComma
  | trailingCharacters
  | invalidNumber
  | numberOutOfRange
  | invalidEscape
  | controlCharacter
  | unfinishedSurrogatePair
  | loneSurrogate
  | nestedTooDeep
  deriving DecidableEq, Repr

/-- The words for a fault. -/
def Fault.message : Fault → String
  | .endInValue => "EOF while parsing a value"
  | .endInList => "EOF while parsing a list"
  | .endInObject => "EOF while parsing an object"
  | .endInString => "EOF while parsing a string"
  | .expectedValue => "expected value"
  | .expectedWord => "expected ident"
  | .expectedColon => "expected `:`"
  | .expectedListCommaOrEnd => "expected `,` or `]`"
  | .expectedObjectCommaOrEnd => "expected `,` or `\x7d`"
  | .keyNotString => "key must be a string"
  | .trailingComma => "trailing comma"
  | .trailingCharacters => "trailing characters"
  | .invalidNumber => "invalid number"
  | .numberOutOfRange => "number out of range"
  | .invalidEscape => "invalid escape"
  | .controlCharacter => "control character (\\u0000-\\u001F) found while parsing a string"
  | .unfinishedSurrogatePair => "unexpected end of hex escape"
  | .loneSurrogate => "lone leading surrogate in hex escape"
  | .nestedTooDeep => "recursion limit exceeded"

/-- A fault at a place, in words. -/
def describeAt (what : String) (text : List Char) (stop : Text.Stop ε) : String :=
  let place := Text.positionAt text (stop.offset text)
  s!"{what} at line {place.line} column {place.column}"

/-- The report of a fault in a text. -/
def faultReport (text : List Char) (stop : Text.Stop Fault) : String :=
  describeAt stop.cause.message text stop

end Phrasebook.Json
