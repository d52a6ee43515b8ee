import Phrasebook.Json.Basic
import Phrasebook.Json.Fault

/-!
# Reading JSON numbers

A number is its sign, its integer digits, and optionally a fraction and an exponent.  All digits
together form one significand that has to fit 64 bits: digits that would make it larger are
left off, and each of them that stands before the point counts one in the exponent.

Integer digits alone give an integer when the value fits 64 bits; everything else is a
floating-point number, and so is minus zero.
-/

namespace Phrasebook.Json

open Text

/-- The run of decimal digits at the front of a text, and the rest. -/
def digitRun (s : List Char) : List Char × List Char :=
  (s.takeWhile Char.isDigit, s.dropWhile Char.isDigit)

/-- Nothing is lost when a run of digits is taken off. -/
theorem digitRun_append (s : List Char) : (digitRun s).1 ++ (digitRun s).2 = s :=
  List.takeWhile_append_dropWhile

/-- Append digits to a significand as long as it fits 64 bits, and count the digits that are left
off. -/
def extend : (significand : Nat) → (digits : List Char) → Nat × Nat
  | significand, [] => (significand, 0)
  | significand, digit :: digits =>
      let longer := 10 * significand + (digit.toNat - '0'.toNat)
      if longer < 18446744073709551616 then extend longer digits else (significand, digits.length + 1)

/-- The integer digits of a number: a zero alone, or a run of digits that starts with another. -/
def readIntegerDigits : List Char → Except (Stop Fault) (List Char × List Char)
  | [] => stopAtEnd .endInValue
  | c :: s =>
      if c = '0' then
        if (digitRun s).1.isEmpty then .ok ([c], s) else stopPast .invalidNumber s
      else if c.isDigit then .ok (digitRun (c :: s))
      else stopPast .invalidNumber (c :: s)

/-- The digits of a fraction, from behind the point. -/
def readFractionDigits (s : List Char) : Except (Stop Fault) (List Char × List Char) :=
  match digitRun s with
  | ([], []) => stopAtEnd .endInValue
  | ([], rest) => stopPast .invalidNumber rest
  | read => .ok read

/-- The exponents that are told apart: one that fits 31 bits, and one that is larger. -/
inductive Exponent where
  | fits (value : Nat)
  | large (unread : List Char)

/-- The value of the digits of an exponent.  Of one that is too large the digits are named that
have not been looked at. -/
def exponentOf : (value : Nat) → (digits : List Char) → Exponent
  | value, [] => .fits value
  | value, digit :: digits =>
      let longer := 10 * value + (digit.toNat - '0'.toNat)
      if longer < 2147483648 then exponentOf longer digits else .large digits

/-- A decimal as it stands in the text. -/
structure Numeral where
  negative : Bool
  significand : Nat
  exponent : Int

/-- The floating-point number for a numeral that ends before `rest`. -/
def Numeral.toNumber (numeral : Numeral) (rest : List Char) :
    Except (Stop Fault) (Number × List Char) :=
  match Double.ofDecimal? numeral.negative numeral.significand numeral.exponent with
  | some x => .ok (.double x, rest)
  | none => stopBefore .numberOutOfRange rest

/-- The sign of an exponent: whether it is negative, and the rest. -/
def exponentSign : List Char → Bool × List Char
  | '+' :: s => (false, s)
  | '-' :: s => (true, s)
  | s => (false, s)

/-- The exponent of a numeral, from behind its letter.  An exponent that is too large makes any
number but zero too large as well, when it is positive, and zero when it is negative. -/
def readExponent (numeral : Numeral) (s : List Char) : Except (Stop Fault) (Number × List Char) :=
  let (below, s) := exponentSign s
  match digitRun s with
  | ([], []) => stopAtEnd .endInValue
  | ([], rest) => stopPast .invalidNumber rest
  | (digits, rest) =>
      match exponentOf 0 digits with
      | .fits value =>
          let exponent := if below then numeral.exponent - value else numeral.exponent + value
          Numeral.toNumber { numeral with exponent } rest
      | .large unread =>
          if numeral.significand ≠ 0 ∧ below = false then
            stopBefore .numberOutOfRange (unread ++ rest)
          else .ok (.double (Double.zero numeral.negative), rest)

/-- A numeral from behind its fraction: an exponent, or the end. -/
def readAfterFraction (numeral : Numeral) (s : List Char) :
    Except (Stop Fault) (Number × List Char) :=
  match s with
  | 'e' :: rest | 'E' :: rest => readExponent numeral rest
  | _ => numeral.toNumber s

/-- The number that integer digits alone stand for, when all of them count. -/
def integerOf (negative : Bool) (significand : Nat) : Option Number :=
  if negative then
    if significand = 0 then none else (Integer.ofInt? (-significand)).map .integer
  else (Integer.ofInt? significand).map .integer

/-- A number from behind its sign. -/
def readUnsigned (negative : Bool) (s : List Char) : Except (Stop Fault) (Number × List Char) := do
  let (digits, rest) ← readIntegerDigits s
  let (significand, left) := extend 0 digits
  match rest with
  | '.' :: rest =>
      let (fraction, rest) ← readFractionDigits rest
      let (significand, surplus) := extend significand fraction
      readAfterFraction ⟨negative, significand, left - (fraction.length - surplus : Nat)⟩ rest
  | 'e' :: rest | 'E' :: rest => readExponent ⟨negative, significand, left⟩ rest
  | _ =>
      match left, integerOf negative significand with
      | 0, some value => .ok (value, rest)
      | _, _ => Numeral.toNumber ⟨negative, significand, left⟩ rest

/-- A number. -/
def readNumber : List Char → Except (Stop Fault) (Number × List Char)
  | '-' :: s => readUnsigned true s
  | s => readUnsigned false s

end Phrasebook.Json
