import MiniPascal.Decimal.Notation
import MiniPascal.Token.Kind

/-!
# Tokens

A token is a kind with a payload: the lowercase lexeme of a word, the spelling of an
operator of two characters, the value of a numeral, the text between quotes, or
nothing. The text of a token is its payload's, or its kind's if there is none.
-/

namespace MiniPascal

/-- What a token carries besides its kind. -/
inductive Payload
  | bare
  | text (s : String)
  | int (n : Int)
  | real (x : Float)
  deriving DecidableEq

/-- A payload as text, `None` if there is nothing. -/
def Payload.display : Payload → String
  | bare => "None"
  | text s => s
  | int n => toString n
  | real x => Decimal.floatText x

/-- A lexeme as the lexer hands it on. -/
structure Token where
  kind : Kind
  payload : Payload
  deriving DecidableEq

namespace Token

/-- A token that carries nothing but its kind. -/
def plain (kind : Kind) : Token :=
  ⟨kind, .bare⟩

/-- A token that carries its spelling. -/
def spelled (kind : Kind) : Token :=
  ⟨kind, .text kind.text⟩

/-- The name `lexeme`. -/
def ident (lexeme : String) : Token :=
  ⟨.ident, .text lexeme⟩

/-- An integer numeral of value `n`. -/
def num (n : Nat) : Token :=
  ⟨.num, .int n⟩

/-- A numeral with a point, of value `x`. -/
def real (x : Float) : Token :=
  ⟨.real, .real x⟩

/-- The character constant of `c`. -/
def charConst (c : Char) : Token :=
  ⟨.charConst, .text (String.singleton c)⟩

/-- The string literal of `s`. -/
def literal (s : String) : Token :=
  ⟨.literal, .text s⟩

/-- A character that is no lexeme of the language. -/
def symbol (c : Char) : Token :=
  ⟨.symbol, .text (String.singleton c)⟩

/-- The text of a token, as tables and messages show it. -/
def text (token : Token) : String :=
  match token.payload with
  | .bare => token.kind.text
  | payload => payload.display

/-- A token that carries its spelling has the text of its kind. -/
theorem text_spelled (kind : Kind) : (spelled kind).text = kind.text := rfl

theorem text_plain (kind : Kind) : (plain kind).text = kind.text := rfl

end Token

end MiniPascal
