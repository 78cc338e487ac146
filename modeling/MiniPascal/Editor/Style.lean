import MiniPascal.Token.Basic

/-!
# Styles

How the editor shows the tokens of each group, and comments.
-/

namespace MiniPascal.Editor

/-- A way to show text: its colour, whether it is bold, and whether a wave of the same
    colour underlines it. -/
structure Style where
  color : String
  bold : Bool
  wavy : Bool
  deriving DecidableEq, Repr

/-- The style of the tokens of a group. -/
def groupStyle : Group → Style
  | .identifier => ⟨"#FCFCFA", false, false⟩
  | .reserved => ⟨"#FF6188", true, false⟩
  | .number => ⟨"#AB9DF2", false, false⟩
  | .string => ⟨"#A9DC76", false, false⟩
  | .arithmetic => ⟨"#FF6188", false, false⟩
  | .assignment => ⟨"#FF6188", false, false⟩
  | .relational => ⟨"#FFD866", false, false⟩
  | .logical => ⟨"#FFD866", true, false⟩
  | .delimiter => ⟨"#FD9353", false, false⟩
  | .unknown => ⟨"#A9DC76", true, true⟩

/-- All groups. -/
def allGroups : List Group :=
  [ .identifier, .reserved, .number, .string, .arithmetic, .assignment, .relational, .logical,
    .delimiter, .unknown ]

/-- The style of comments. -/
def commentStyle : Style :=
  ⟨"#727072", false, false⟩

/-- The colour behind the text. -/
def background : String :=
  "#2d2a2e"

/-- The text of a token as it stands in the editor: literals within their quotes. -/
def sourceText (token : Token) : String :=
  match token.kind with
  | .literal => "\"" ++ token.payload.display ++ "\""
  | .charConst => "'" ++ token.payload.display ++ "'"
  | _ => token.text

end MiniPascal.Editor
