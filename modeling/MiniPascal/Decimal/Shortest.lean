import MiniPascal.Decimal.Binary64

/-!
# The shortest decimal that reads back

The decimals that round to a double `mantissa * 2 ^ exponent` fill the interval of the
reals closer to it than to its neighbours, the ends included if the mantissa is even.
`shortest` takes the decimal with the fewest digits in that interval, and of those the
nearest to the double.

It tries the grids of decimals with one digit, two digits, and so on up to seventeen.
If the interval holds any point of a grid, it holds the one just below the double or
the one just above it, so no other is tried.
-/

namespace MiniPascal.Decimal

/-- The decimals `digits * 10 ^ exponent`. -/
structure Scaled where
  digits : Nat
  exponent : Int
  deriving DecidableEq, Repr

/-- The interval of the reals that round to a double, with the double itself: all over
    one denominator. -/
structure Rounding where
  low : Nat
  value : Nat
  high : Nat
  denominator : Nat
  closed : Bool

/-- The interval around `mantissa * 2 ^ exponent`. Below a power of two doubles lie
    twice as close as above it, except at the least exponent. -/
def Rounding.around (mantissa : Nat) (exponent : Int) : Rounding :=
  let scale := Nat.pow 2 exponent.toNat
  let below := if mantissa = Nat.pow 2 52 ∧ exponent > -1074 then 1 else 2
  { low := (4 * mantissa - below) * scale
    value := 4 * mantissa * scale
    high := (4 * mantissa + 2) * scale
    denominator := 4 * Nat.pow 2 (-exponent).toNat
    closed := mantissa % 2 = 0 }

/-- Whether a decimal lies in the interval. -/
def Rounding.contains (r : Rounding) (d : Scaled) : Bool :=
  let point := d.digits * Nat.pow 10 d.exponent.toNat * r.denominator
  let unit := Nat.pow 10 (-d.exponent).toNat
  if r.closed then r.low * unit ≤ point && point ≤ r.high * unit
  else r.low * unit < point && point < r.high * unit

/-- The distance of a decimal from the double, in units that depend only on the
    decimal's exponent. -/
def Rounding.distance (r : Rounding) (d : Scaled) : Nat :=
  let point := d.digits * Nat.pow 10 d.exponent.toNat * r.denominator
  let value := r.value * Nat.pow 10 (-d.exponent).toNat
  (point - value) + (value - point)

/-- The number of decimal digits of a natural number. -/
def decimalLength (n : Nat) : Nat :=
  (Nat.toDigits 10 n).length

/-- The place of the point of a positive number: it lies between `10 ^ (place - 1)`,
    included, and `10 ^ place`. -/
def Rounding.place (r : Rounding) : Int :=
  if r.denominator ≤ r.value then decimalLength (r.value / r.denominator)
  else
    let zeros := (List.range 400).find? fun k => r.denominator ≤ r.value * Nat.pow 10 k
    1 - (zeros.getD 0 : Int)

/-- The decimal just below the double on the grid of the given exponent. -/
def Rounding.floor (r : Rounding) (exponent : Int) : Scaled :=
  let value := r.value * Nat.pow 10 (-exponent).toNat
  { digits := value / (r.denominator * Nat.pow 10 exponent.toNat), exponent }

/-- The decimal of a grid that reads back, if there is one; the nearer of two, and of
    two that are equally near the one whose digits are even. -/
def Rounding.onGrid? (r : Rounding) (exponent : Int) : Option Scaled :=
  -- No other point of the grid is nearer to the double than these two.
  let below := r.floor exponent
  let above := { below with digits := below.digits + 1 }
  match r.contains below, r.contains above with
  | true, true =>
    if r.distance below < r.distance above
        ∨ r.distance below = r.distance above ∧ below.digits % 2 = 0 then some below
    else some above
  | true, false => some below
  | false, true => some above
  | false, false => none

/-- The shortest decimal that rounds to the double `mantissa * 2 ^ exponent`, for a
    positive mantissa. -/
def shortest (mantissa : Nat) (exponent : Int) : Scaled :=
  let r := Rounding.around mantissa exponent
  let grids := (List.range 17).map fun k => r.place - (k + 1 : Nat)
  (grids.findSome? r.onGrid?).getD { digits := 4 * mantissa, exponent }

end MiniPascal.Decimal
