/-!
# Binary floating-point numbers

Finite numbers of the binary format with 53 significant bits.  A number is kept as its sign, its
significand and its exponent, in the one form that the format allows, so equal numbers are equal
values (the two zeros apart).

`nearest?` rounds a quotient of natural numbers to the nearest such number; products and quotients
are computed exactly and rounded once.  There is no infinity: a result that is too large has no
answer.
-/

namespace Phrasebook

/-- The least significand with 53 bits. -/
def Double.leastFull : Nat := 4503599627370496

/-- The significand and exponent of a number are in canonical form: the significand has 53 bits,
or fewer if the exponent is the least one. -/
def Double.Canonical (significand : Nat) (exponent : Int) : Prop :=
  significand < 2 * leastFull ∧ -1074 ≤ exponent ∧ exponent ≤ 971 ∧
    (leastFull ≤ significand ∨ exponent = -1074)

instance (significand : Nat) (exponent : Int) : Decidable (Double.Canonical significand exponent) :=
  inferInstanceAs (Decidable (_ ∧ _))

/-- The finite number `significand * 2 ^ exponent`, with a sign. -/
structure Double where
  negative : Bool
  significand : Nat
  exponent : Int
  canonical : Double.Canonical significand exponent
  deriving DecidableEq

namespace Double

/-- Zero, which has a sign. -/
def zero (negative : Bool) : Double :=
  ⟨negative, 0, -1074, by decide⟩

/-- A number is zero when its significand is. -/
def isZero (x : Double) : Bool :=
  x.significand = 0

/-- The number without its sign, with the given one. -/
def withSign (x : Double) (negative : Bool) : Double :=
  { x with negative }

/-- The number with these parts, when they are in canonical form. -/
def ofParts? (negative : Bool) (significand : Nat) (exponent : Int) : Option Double :=
  if h : Canonical significand exponent then some ⟨negative, significand, exponent, h⟩ else none

/-! ## Rounding -/

/-- The integer nearest to `num / den`; a half goes to the even neighbour. -/
def roundDiv (num den : Nat) : Nat :=
  let quotient := num / den
  let remainder := num % den
  if 2 * remainder < den then quotient
  else if den < 2 * remainder then quotient + 1
  else quotient + quotient % 2

/-- The quotient `(num / den) / 2 ^ exponent` as a numerator and a denominator. -/
def scale (num den : Nat) (exponent : Int) : Nat × Nat :=
  (num * Nat.pow 2 (-exponent).toNat, den * Nat.pow 2 exponent.toNat)

/-- The greatest `e` with `2 ^ e ≤ num / den`, for positive `num` and `den`. -/
def floorLog (num den : Nat) : Int :=
  let guess : Int := num.log2 - den.log2
  let scaled := scale num den guess
  if scaled.2 ≤ scaled.1 then guess else guess - 1

/-- The number nearest to `num / den`; a half goes to the even significand.  There is none when
the quotient is too large for the format. -/
def nearest? (negative : Bool) (num den : Nat) : Option Double :=
  if num = 0 then some (zero negative)
  else
    let exponent := max (floorLog num den - 52) (-1074)
    let scaled := scale num den exponent
    let significand := roundDiv scaled.1 scaled.2
    if significand = 2 * leastFull then ofParts? negative leastFull (exponent + 1)
    else ofParts? negative significand exponent

/-- The product, rounded once. -/
def mul? (x y : Double) : Option Double :=
  let scaled := scale (x.significand * y.significand) 1 (-(x.exponent + y.exponent))
  nearest? (x.negative != y.negative) scaled.1 scaled.2

/-- The quotient, rounded once, for a divisor other than zero. -/
def div? (x y : Double) : Option Double :=
  let scaled := scale x.significand y.significand (y.exponent - x.exponent)
  nearest? (x.negative != y.negative) scaled.1 scaled.2

/-! ## Powers of ten -/

/-- The number nearest to `10 ^ exponent`; there is none above `10 ^ 308`. -/
def tenTo? (exponent : Nat) : Option Double :=
  nearest? false (Nat.pow 10 exponent) 1

/-- The number divided by `10 ^ exponent`.  Powers up to `10 ^ 308` are divided by in one step;
greater ones by `10 ^ 308` first, as often as needed, and a zero stays as it is. -/
def divTenTo? (x : Double) (exponent : Nat) : Option Double :=
  if exponent ≤ 308 then (tenTo? exponent).bind x.div?
  else if x.isZero then some x
  else ((tenTo? 308).bind x.div?).bind fun y => divTenTo? y (exponent - 308)
termination_by exponent

/-- The number multiplied by `10 ^ exponent`, in one step.  A zero stays as it is under any
power. -/
def mulTenTo? (x : Double) (exponent : Nat) : Option Double :=
  if exponent ≤ 308 then (tenTo? exponent).bind x.mul?
  else if x.isZero then some x
  else none

/-- The number that the decimal `significand * 10 ^ exponent` is read as: the significand is
rounded first, then multiplied or divided by the power of ten. -/
def ofDecimal? (negative : Bool) (significand : Nat) (exponent : Int) : Option Double :=
  (nearest? false significand 1).bind fun x =>
    let scaled := if 0 ≤ exponent then x.mulTenTo? exponent.toNat
      else x.divTenTo? (-exponent).toNat
    scaled.map (withSign · negative)

end Double

end Phrasebook
