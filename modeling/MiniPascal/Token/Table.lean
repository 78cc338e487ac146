import MiniPascal.Text.Column
import MiniPascal.Token.Basic

/-!
# The token table

The table that lists tokens, a row each, with the line of each.
-/

namespace MiniPascal.Token

/-- The widths of the columns of the token table, the last one apart. -/
def tableWidths : List Nat :=
  [20, 14, 14]

/-- The row of a token. -/
def tableRow {Line : Type} [ToString Line] (line : Line) (token : Token) : String :=
  Text.row tableWidths [token.text, token.kind.name, token.kind.group.name, toString line]

/-- The table of tokens, each with its line. -/
def table {Line : Type} [ToString Line] (rows : List (Line × Token)) : String :=
  Text.row tableWidths ["Lexeme", "Kind", "Group", "Line"] ++ Text.rule 54 ++
    String.join (rows.map fun (line, token) => tableRow line token)

end MiniPascal.Token
