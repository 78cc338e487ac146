import MiniPascal.Decimal.Shortest

/-!
# Decimal notation

How a double is written: with the digits of the shortest decimal that reads back
(`Decimal.Shortest`), with a point and at least one digit after it if its exponent is
between `-4` and `15`, and in scientific notation otherwise. The exponent then has a
sign and at least two digits, and a single digit stands without a point. Infinities
and what is no number are named.
-/

namespace MiniPascal.Decimal

/-- The decimal with the zeros at the end of its digits moved to its exponent; `fuel`
    bounds their number. -/
def Scaled.trim : Nat → Scaled → Scaled
  | 0, d => d
  | fuel + 1, d =>
    if d.digits ≠ 0 ∧ d.digits % 10 = 0 then
      trim fuel { digits := d.digits / 10, exponent := d.exponent + 1 }
    else d

/-- The exponents that are written with a point alone. -/
def positionalExponents : Int × Int :=
  (-4, 15)

/-- Digits with a point, `place` digits before it. -/
def positional (digits : List Char) (place : Int) : List Char :=
  if place ≤ 0 then '0' :: '.' :: List.replicate (-place).toNat '0' ++ digits
  else if digits.length ≤ place.toNat then
    digits ++ List.replicate (place.toNat - digits.length) '0' ++ ['.', '0']
  else digits.take place.toNat ++ '.' :: digits.drop place.toNat

/-- An exponent in scientific notation. -/
def exponentMark (exponent : Int) : List Char :=
  let digits := Nat.toDigits 10 exponent.natAbs
  'e' :: (if exponent < 0 then '-' else '+') ::
    List.replicate (2 - digits.length) '0' ++ digits

/-- Digits in scientific notation, the first one before the point. -/
def scientific (digits : List Char) (exponent : Int) : List Char :=
  match digits with
  | [] => exponentMark exponent
  | [d] => d :: exponentMark exponent
  | d :: ds => d :: '.' :: ds ++ exponentMark exponent

/-- A positive decimal as it is written. -/
def Scaled.toChars (d : Scaled) : List Char :=
  let d := d.trim (decimalLength d.digits)
  let digits := Nat.toDigits 10 d.digits
  let place := d.exponent + digits.length
  if positionalExponents.1 ≤ place - 1 ∧ place - 1 ≤ positionalExponents.2 then
    positional digits place
  else scientific digits (place - 1)

/-- A double as it is written. -/
def floatText (x : Float) : String :=
  match Binary64.ofFloat x with
  | .nan => "nan"
  | .infinite negative => if negative then "-inf" else "inf"
  | .finite negative mantissa exponent =>
    let chars := if mantissa = 0 then ['0', '.', '0'] else (shortest mantissa exponent).toChars
    String.ofList (if negative then '-' :: chars else chars)

end MiniPascal.Decimal
