/-!
# Tables in columns

A row of a table sets its cells flush left in columns of given widths, the last cell
unpadded. A cell that is as wide as its column or wider is neither cut nor set apart
from the next one. Widths count characters.
-/

namespace MiniPascal.Text

/-- A cell padded with spaces to the width of its column. -/
def column (width : Nat) (cell : String) : String :=
  cell ++ String.ofList (List.replicate (width - cell.length) ' ')

/-- A row of a table: the cells in their columns, then those left over, then the
    end of the line. -/
def row : List Nat → List String → String
  | width :: widths, cell :: cells => column width cell ++ row widths cells
  | _, cells => String.join cells ++ "\n"

/-- The rule below the header of a table. -/
def rule (width : Nat) : String :=
  String.ofList (List.replicate width '-') ++ "\n"

/-- A cell fills its column at least. -/
theorem length_column (width : Nat) (cell : String) :
    (column width cell).length = max width cell.length := by
  simp [column]
  omega

end MiniPascal.Text
