import Phrasebook.Double.Basic
import Phrasebook.Entries

/-!
# JSON values

Values of the JSON data format.  Objects keep the order of their entries.  A number remembers
whether it was written as an integer: an integer fits 64 bits, with or without a sign, and every
other number is a finite floating-point number.
-/

namespace Phrasebook

/-- An integer that fits 64 bits, with or without a sign. -/
structure Integer where
  value : Int
  fits : -9223372036854775808 ≤ value ∧ value < 18446744073709551616
  deriving DecidableEq

/-- The integer with this value, when it fits. -/
def Integer.ofInt? (value : Int) : Option Integer :=
  if h : -9223372036854775808 ≤ value ∧ value < 18446744073709551616 then some ⟨value, h⟩ else none

/-- A JSON number. -/
inductive Number where
  | integer (value : Integer)
  | double (value : Double)
  deriving DecidableEq

/-- A JSON value that holds neither text nor other values. -/
inductive Scalar where
  | null
  | bool (value : Bool)
  | number (value : Number)
  deriving DecidableEq

/-- A JSON value. -/
inductive Json where
  | scalar (value : Scalar)
  | string (text : String)
  | array (items : List Json)
  | object (entries : List (String × Json))
  deriving Inhabited

namespace Json

/-- The JSON value `null`. -/
@[match_pattern] def null : Json := .scalar .null

/-- A JSON truth value. -/
@[match_pattern] def bool (value : Bool) : Json := .scalar (.bool value)

/-- A JSON number. -/
@[match_pattern] def number (value : Number) : Json := .scalar (.number value)

/-- A natural number that fits 64 bits, as a JSON number. -/
def natural (value : Fin 18446744073709551616) : Json :=
  .number (.integer ⟨value.val, by omega⟩)

/-- What kind of value a JSON value is. -/
inductive Kind where
  | null
  | bool
  | number
  | string
  | array
  | object
  deriving DecidableEq, Repr

/-- The kind of a value. -/
def kind : Json → Kind
  | .scalar .null => .null
  | .scalar (.bool _) => .bool
  | .scalar (.number _) => .number
  | .string _ => .string
  | .array _ => .array
  | .object _ => .object

/-- The kind in words, as it is named in messages. -/
def Kind.describe : Kind → String
  | .null => "null"
  | .bool => "a boolean"
  | .number => "a number"
  | .string => "a string"
  | .array => "an array"
  | .object => "an object"

end Json

end Phrasebook
