import Phrasebook.Json.Basic
import Phrasebook.Double.Shortest

/-!
# JSON text

The compact text of a JSON value: no white space, strings with as few escapes as the format
allows, integers in decimal and other numbers by their shortest decimal.
-/

namespace Phrasebook

/-! ## Numbers -/

/-- The text of a finite number: plain decimal with at least one digit on either side of the point
when the number is zero or from `1e-5` up to but not including `1e16`, and otherwise one digit
before the point and an exponent with its sign. -/
def Double.text (x : Double) : String :=
  let shortest := x.shortest
  let digits := Nat.toDigits 10 shortest.digits
  let point : Int := digits.length + shortest.exponent
  let magnitude : List Char :=
    if 0 ≤ shortest.exponent ∧ point ≤ 16 then
      digits ++ List.replicate shortest.exponent.toNat '0' ++ ['.', '0']
    else if 0 < point ∧ point ≤ 16 then
      digits.take point.toNat ++ '.' :: digits.drop point.toNat
    else if -5 < point ∧ point ≤ 0 then
      '0' :: '.' :: List.replicate (-point).toNat '0' ++ digits
    else
      let fraction := if digits.length = 1 then [] else '.' :: digits.drop 1
      let sign := if point - 1 < 0 then '-' else '+'
      digits.take 1 ++ fraction ++ 'e' :: sign :: Nat.toDigits 10 (point - 1).natAbs
  String.ofList (if x.negative then '-' :: magnitude else magnitude)

/-- The text of an integer is its decimal numeral. -/
def Integer.text (i : Integer) : String :=
  toString i.value

/-- The text of a number. -/
def Number.text : Number → String
  | .integer i => i.text
  | .double x => x.text

namespace Scalar

/-- The text of a scalar. -/
def text : Scalar → String
  | .null => "null"
  | .bool true => "true"
  | .bool false => "false"
  | .number n => n.text

end Scalar

namespace Json

/-! ## Strings -/

/-- A character as it stands inside a JSON string.  Quotes, backslashes and control characters are
escaped; all else stands for itself. -/
def escapeChar (c : Char) : List Char :=
  if c = '"' then ['\\', '"']
  else if c = '\\' then ['\\', '\\']
  else if c = '\x08' then ['\\', 'b']
  else if c = '\x0c' then ['\\', 'f']
  else if c = '\n' then ['\\', 'n']
  else if c = '\r' then ['\\', 'r']
  else if c = '\t' then ['\\', 't']
  else if c.toNat < 0x20 then
    ['\\', 'u', '0', '0', Nat.digitChar (c.toNat / 16), Nat.digitChar (c.toNat % 16)]
  else [c]

/-- A text in double quotes. -/
def quote (text : String) : String :=
  String.ofList ('"' :: text.toList.flatMap escapeChar ++ ['"'])

/-! ## Values -/

mutual

/-- The compact text of a value. -/
def text : Json → String
  | .scalar value => value.text
  | .string value => quote value
  | .array items => "[" ++ ",".intercalate (itemTexts items) ++ "]"
  | .object entries => "\x7b" ++ ",".intercalate (entryTexts entries) ++ "\x7d"

/-- The texts of the items of an array. -/
def itemTexts : List Json → List String
  | [] => []
  | item :: items => text item :: itemTexts items

/-- The texts of the entries of an object. -/
def entryTexts : List (String × Json) → List String
  | [] => []
  | (name, value) :: entries => (quote name ++ ":" ++ text value) :: entryTexts entries

end

end Json

end Phrasebook
