/-!
# Classes of characters given by ranges

A class of characters is the list of the ranges of code points it covers, both
ends included. The tables of `Text.Letter`, `Text.Numeral`, `Text.Printable` and
`Text.Lowercase` are such lists; membership is `Ranges.contains`, whose meaning
is `Ranges.contains_iff`.
-/

namespace MiniPascal.Text

/-- The ranges of code points covered by a class of characters, each with its
    first and its last code point. -/
abbrev Ranges := List (Nat × Nat)

/-- Whether a character lies in one of the ranges. -/
def Ranges.contains (ranges : Ranges) (c : Char) : Bool :=
  ranges.any fun (first, last) => first ≤ c.toNat && c.toNat ≤ last

theorem Ranges.contains_iff {ranges : Ranges} {c : Char} :
    ranges.contains c = true ↔ ∃ r ∈ ranges, r.1 ≤ c.toNat ∧ c.toNat ≤ r.2 := by
  simp [Ranges.contains]

end MiniPascal.Text
