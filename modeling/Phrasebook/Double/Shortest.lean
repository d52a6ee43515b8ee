import Phrasebook.Double.Basic

/-!
# Shortest decimals

A finite number is written with the fewest decimal digits that read back as the same number; of
two decimals with that many digits the nearer one is taken, and of two equally near ones the one
with an even last digit.

The reals that read back as a number form an interval around it that ends half way to its
neighbours, ends included when the significand is even.  `shortest` asks of one decimal grid after
the other, from coarse to fine, whether one of the two grid points next to the number lies in that
interval.
-/

namespace Phrasebook.Double

/-- A decimal `digits * 10 ^ exponent`. -/
structure Decimal where
  digits : Nat
  exponent : Int
  deriving DecidableEq, Repr

/-- A decimal without the zeros at its end. -/
def Decimal.strip (fuel : Nat) (d : Decimal) : Decimal :=
  match fuel with
  | 0 => d
  | fuel + 1 =>
      if d.digits ≠ 0 ∧ d.digits % 10 = 0 then strip fuel ⟨d.digits / 10, d.exponent + 1⟩ else d

/-- The number and the ends of the interval of reals that round to it, all as multiples of
`1 / unit`. -/
structure Interval where
  unit : Nat
  low : Nat
  value : Nat
  high : Nat
  closed : Bool

/-- The interval of a number.  Below a power of two the neighbour is half as far away as above. -/
def interval (x : Double) : Interval :=
  let narrow := x.significand = leastFull ∧ x.exponent ≠ -1074
  let up := Nat.pow 2 x.exponent.toNat
  { unit := 4 * Nat.pow 2 (-x.exponent).toNat
    low := (4 * x.significand - if narrow then 1 else 2) * up
    value := 4 * x.significand * up
    high := (4 * x.significand + 2) * up
    closed := x.significand % 2 = 0 }

/-- Whether `point * 10 ^ exponent`, with the power of ten split into `up / down`, lies in the
interval. -/
def Interval.holds (i : Interval) (up down point : Nat) : Bool :=
  let scaled := point * up * i.unit
  if i.closed then i.low * down ≤ scaled && scaled ≤ i.high * down
  else i.low * down < scaled && scaled < i.high * down

/-- The grid point of spacing `10 ^ exponent` that stands for the number, if one of its two
neighbours on the grid does. -/
def Interval.onGrid? (i : Interval) (exponent : Int) : Option Decimal :=
  let up := Nat.pow 10 exponent.toNat
  let down := Nat.pow 10 (-exponent).toNat
  let below := i.value * down / (up * i.unit)
  let above := below + 1
  let fromBelow := i.value * down - below * up * i.unit
  let fromAbove := above * up * i.unit - i.value * down
  match i.holds up down below, i.holds up down above with
  | false, false => none
  | true, false => some ⟨below, exponent⟩
  | false, true => some ⟨above, exponent⟩
  | true, true =>
      if fromBelow < fromAbove ∨ (fromBelow = fromAbove ∧ below % 2 = 0) then
        some ⟨below, exponent⟩
      else some ⟨above, exponent⟩

/-- The exponent of the greatest power of ten that is not above the value of the interval, found by
counting up from an exponent that is at most `steps` too small. -/
def Interval.magnitude (i : Interval) : (steps : Nat) → (exponent : Int) → Int
  | 0, exponent => exponent
  | steps + 1, exponent =>
      let next := exponent + 1
      if Nat.pow 10 next.toNat * i.unit ≤ i.value * Nat.pow 10 (-next).toNat then magnitude i steps next
      else exponent

/-- The shortest decimal that reads back as the number, without its sign.  Seventeen digits always
suffice.  The logarithm of two, 0.30103, turns the binary magnitude into a decimal one. -/
def shortest (x : Double) : Decimal :=
  if x.isZero then ⟨0, 0⟩
  else
    let i := x.interval
    let magnitude := i.magnitude 3 (floorLog i.value i.unit * 30103 / 100000 - 1)
    let found := (List.range 17).findSome? fun (fewer : Nat) => i.onGrid? (magnitude - (fewer : Int))
    (found.getD ⟨0, 0⟩).strip 17

end Phrasebook.Double
