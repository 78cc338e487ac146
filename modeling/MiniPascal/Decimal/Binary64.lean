/-!
# Doubles as exact numbers

A finite double is, up to sign, `mantissa * 2 ^ exponent` for natural `mantissa`
(`Binary64.ofFloat`). In the other direction, `roundNat` takes a natural number to the
nearest such product with a mantissa of 53 bits, a tie going to the even mantissa;
`ofNat?` is the double of it, unless it is beyond the largest one (`ofNat?_eq_none_iff`).
-/

namespace MiniPascal.Decimal

/-- What a double stands for. -/
inductive Binary64
  | nan
  | infinite (negative : Bool)
  | finite (negative : Bool) (mantissa : Nat) (exponent : Int)
  deriving DecidableEq, Repr

/-- The exact meaning of a double. The least exponent is `-1074`; above it, the
    mantissa has 53 bits, the highest of which is not stored. -/
def Binary64.ofFloat (x : Float) : Binary64 :=
  let bits := x.toBits.toNat
  let negative := bits / Nat.pow 2 63 == 1
  let biased : Nat := bits / Nat.pow 2 52 % Nat.pow 2 11
  let fraction : Nat := bits % Nat.pow 2 52
  if biased = 2047 then
    if fraction = 0 then infinite negative else nan
  else if biased = 0 then finite negative fraction (-1074)
  else finite negative (Nat.pow 2 52 + fraction) (biased - 1075)

/-- The nearest `mantissa * 2 ^ exponent` to a natural number, the mantissa at most
    `2 ^ 53`; of two that are equally near, the one whose mantissa is even. -/
def roundNat (n : Nat) : Nat × Nat :=
  if n < Nat.pow 2 53 then (n, 0)
  else
    let exponent := n.log2 - 52
    let unit := Nat.pow 2 exponent
    let below := n / unit
    let rest := n % unit
    if 2 * rest > unit ∨ 2 * rest = unit ∧ below % 2 = 1 then (below + 1, exponent)
    else (below, exponent)

/-- Whether a natural number rounds to a finite double. -/
def fitsBinary64 (n : Nat) : Bool :=
  let (mantissa, exponent) := roundNat n
  mantissa * Nat.pow 2 exponent < Nat.pow 2 1024

/-- The double nearest to a natural number, if it is finite. -/
def ofNat? (n : Nat) : Option Float :=
  if fitsBinary64 n then
    let (mantissa, exponent) := roundNat n
    some ((Float.ofNat mantissa).scaleB exponent)
  else none

/-- The integer part of a double, its fraction dropped; 0 for what is not finite. -/
def truncate (x : Float) : Int :=
  match Binary64.ofFloat x with
  | .finite negative mantissa exponent =>
    let whole := mantissa * Nat.pow 2 exponent.toNat / Nat.pow 2 (-exponent).toNat
    if negative then -whole else whole
  | _ => 0

theorem ofNat?_eq_none_iff {n : Nat} : ofNat? n = none ↔ fitsBinary64 n = false := by
  simp [ofNat?]

end MiniPascal.Decimal
