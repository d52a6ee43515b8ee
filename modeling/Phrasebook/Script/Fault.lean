import Phrasebook.Json.Fault

/-!
# Faults of compiled sources

What can be wrong with a text that should be compiled messages.  String and number literals are
JSON texts of their own, so their faults are reported the way JSON faults are.
-/

namespace Phrasebook.Script

/-- What can be wrong with a compiled source. -/
inductive Fault where
  | unexpectedCharacter
  | unexpectedEnd
  | trailingSource
  /-- Another character stands where this one has to. -/
  | expectedChar (c : Char)
  | expectedDefault
  | expectedObjectKey
  | expectedRendererCall
  /-- A function calls something else than its own parameter. -/
  | foreignCall
  | unterminatedTemplate
  | unterminatedEscape
  | unterminatedString
  | invalidUnicodeEscape
  | expectedKey
  | invalidIndex
  /-- A literal is no JSON text. -/
  | badLiteral (report : String)
  deriving DecidableEq, Repr

/-- The words for a fault. -/
def Fault.message : Fault → String
  | .unexpectedCharacter => "unexpected character"
  | .unexpectedEnd => "unexpected end of source"
  | .trailingSource => "unexpected trailing source"
  | .expectedChar c => s!"expected `{c}`"
  | .expectedDefault => "expected `default`"
  | .expectedObjectKey => "expected an object key"
  | .expectedRendererCall => "expected the renderer call"
  | .foreignCall => "closure must call its own renderer parameter"
  | .unterminatedTemplate => "unterminated template literal"
  | .unterminatedEscape => "unterminated escape sequence"
  | .unterminatedString => "unterminated string literal"
  | .invalidUnicodeEscape => "invalid unicode escape"
  | .expectedKey => "expected an interpolation key"
  | .invalidIndex => "invalid positional key"
  | .badLiteral report => report

end Phrasebook.Script

namespace Phrasebook

/-- A text is not a compiled source: what is wrong with it, and how many bytes stand before the
place. -/
structure SourceError where
  fault : Script.Fault
  offset : Nat
  deriving DecidableEq, Repr

/-- The report of an unreadable source. -/
def SourceError.message (error : SourceError) : String :=
  s!"invalid compiled source at offset {error.offset}: {error.fault.message}"

end Phrasebook
