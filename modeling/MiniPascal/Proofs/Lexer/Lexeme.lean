import MiniPascal.Lexer.Scan
import Mathlib.Data.Nat.Digits.Defs

/-!
# The lexical grammar

How a text is made up of lexemes with blanks and comments between them. A lexeme spells a
token, and is as long as it can be: what follows it would not go on with it (`Lexeme`).

A text that is not so made up is split as far as it is (`Split`). What then stands in place
of a lexeme is the beginning of one that is never finished (`Malformed`), or a numeral too
large for a token (`Oversized`).

The grammar takes the classes of characters and the lowercase form of words as they are,
and knows nothing of how a text is scanned.
-/

namespace MiniPascal

/-- The characters that mean nothing but to separate lexemes. -/
def blanks : List Char :=
  [' ', '\t', '\r', '\x08', '\n']

/-- The characters that are no part of a word or a numeral and begin something other than a
    symbol. -/
def marks : List Char :=
  blanks ++ ['\x7b', '%', '&', '|', '=', '!', '<', '>', '+', '-', '*', '/', ';', ':', ',', '(', ')',
    '\x27', '\x22']

/-- The operators of two characters. -/
def Kind.pairs : List Kind :=
  [and, or, equal, notEqual, lessEqual, greaterEqual]

/-- The operators of one character that an equals sign after it would make another of. -/
def Kind.halves : List Kind :=
  [assign, not, less, greater]

/-- The other operators and delimiters of one character. -/
def Kind.singles : List Kind :=
  [plus, minus, times, divide, semicolon, colon, comma, leftParen, rightParen]

/-! ### Blanks and comments -/

/-- Blanks and comments that are closed. -/
inductive Trivia : List Char → Prop
  | nil : Trivia []
  | blank {c : Char} {rest : List Char} : c ∈ blanks → Trivia rest → Trivia (c :: rest)
  | block {inside rest : List Char} : '\x7d' ∉ inside → Trivia rest →
    Trivia ('\x7b' :: (inside ++ '\x7d' :: rest))
  | line {inside rest : List Char} : '\n' ∉ inside → Trivia rest →
    Trivia ('%' :: (inside ++ '\n' :: rest))

/-- What may stand between the last blank or comment that is closed and the end of a text. -/
inductive Ending : List Char → Prop
  | nil : Ending []
  | line {inside : List Char} : '\n' ∉ inside → Ending ('%' :: inside)

/-! ### Lexemes -/

/-- No character that satisfies `p` comes next. -/
def NotNext (p : Char → Bool) (rest : List Char) : Prop :=
  ∀ c ∈ rest.head?, p c = false

/-- A word. -/
def IsWord (w : List Char) : Prop :=
  (∃ c ∈ w.head?, Text.isLetter c = true) ∧ ∀ c ∈ w, Text.isWordChar c = true

/-- A run of digits. -/
def IsDigits (w : List Char) : Prop :=
  w ≠ [] ∧ ∀ c ∈ w, Text.isDigit c = true

/-- The lexeme that a word is known by. -/
def wordLexeme (w : List Char) : String :=
  String.ofList (Text.lowercase w)

/-- The number that a run of digits stands for. -/
def decimalValue (w : List Char) : Nat :=
  Nat.ofDigits 10 (w.reverse.map Text.digitValue)

/-- A numeral may not be followed by a point, which would make it one with a fraction. -/
def goesOnNumeral (c : Char) : Bool :=
  Text.isDigit c || c = '.'

/-- The lexeme `w`, followed by `rest`, spells a token. -/
inductive Lexeme : List Char → Token → List Char → Prop
  | reserved {w rest : List Char} {kind : Kind} : IsWord w → NotNext Text.isWordChar rest →
    kind ∈ Kind.reservedWords → wordLexeme w = kind.text → Lexeme w (.spelled kind) rest
  | name {w rest : List Char} : IsWord w → NotNext Text.isWordChar rest →
    (∀ kind ∈ Kind.reservedWords, wordLexeme w ≠ kind.text) → Lexeme w (.ident (wordLexeme w)) rest
  | num {w rest : List Char} : IsDigits w → NotNext goesOnNumeral rest →
    Lexeme w (.num (decimalValue w)) rest
  | real {whole fraction rest : List Char} {x : Float} : IsDigits whole → IsDigits fraction →
    NotNext Text.isDigit rest → Decimal.ofNat? (decimalValue whole) = some x →
    Lexeme (whole ++ '.' :: fraction) (.real (Lexer.addFraction x fraction)) rest
  | charConst (c : Char) (rest : List Char) : Lexeme ['\x27', c, '\x27'] (.charConst c) rest
  | literal {inside : List Char} (rest : List Char) : '\x22' ∉ inside → '\n' ∉ inside →
    Lexeme ('\x22' :: (inside ++ ['\x22'])) (.literal (String.ofList inside)) rest
  | pair {kind : Kind} (rest : List Char) : kind ∈ Kind.pairs →
    Lexeme kind.text.toList (.spelled kind) rest
  | single {kind : Kind} (rest : List Char) : kind ∈ Kind.singles →
    Lexeme kind.text.toList (.plain kind) rest
  | half {kind : Kind} {rest : List Char} : kind ∈ Kind.halves → NotNext (· = '=') rest →
    Lexeme kind.text.toList (.plain kind) rest
  | lone {c : Char} {rest : List Char} : c ∈ ['&', '|'] → NotNext (· = c) rest →
    Lexeme [c] (.symbol c) rest
  | symbol {c : Char} (rest : List Char) : c ∉ marks → Text.isLetter c = false →
    Text.isDigit c = false → Lexeme [c] (.symbol c) rest

/-! ### What is no lexeme -/

/-- A text begins with what is no lexeme, for a cause that is noticed so many lines on. -/
inductive Malformed : LexicalCause → Nat → List Char → Prop
  | comment {inside : List Char} : '\x7d' ∉ inside →
    Malformed .unclosedComment (inside.count '\n') ('\x7b' :: inside)
  | charConst {rest : List Char} : (∀ c after, rest ≠ c :: '\x27' :: after) →
    Malformed .malformedChar ((rest.take 1).count '\n') ('\x27' :: rest)
  | literal {inside rest : List Char} : '\x22' ∉ inside → '\n' ∉ inside →
    (rest = [] ∨ rest.head? = some '\n') →
    Malformed .unclosedLiteral 0 ('\x22' :: (inside ++ rest))
  | point {digits rest : List Char} : IsDigits digits → NotNext Text.isDigit rest →
    Malformed .pointWithoutDigit 0 (digits ++ '.' :: rest)

/-- A text begins with a numeral too large: one that cannot be shown, or one before a point
    that has no double. -/
inductive Oversized : List Char → Prop
  | num {w rest : List Char} : IsDigits w → NotNext goesOnNumeral rest →
    Lexer.numeralBound ≤ decimalValue w → Oversized (w ++ rest)
  | real {w rest : List Char} : IsDigits w → Decimal.ofNat? (decimalValue w) = none →
    Oversized (w ++ '.' :: rest)

/-! ### Splits -/

/-- From a line on, a text begins with blanks, comments and the lexemes of the rows, each with
    the line its lexeme ends on; the rest begins on the line `line'`. -/
inductive Split : Nat → List Char → List (Nat × Token) → Nat → List Char → Prop
  | trivia {line : Nat} {t rest : List Char} : Trivia t →
    Split line (t ++ rest) [] (line + t.count '\n') rest
  | lexeme {line line' : Nat} {t w rest rest' : List Char} {token : Token}
    {rows : List (Nat × Token)} : Trivia t → Lexeme w token rest →
    Split (line + (t ++ w).count '\n') rest rows line' rest' →
    Split line (t ++ (w ++ rest)) ((line + (t ++ w).count '\n', token) :: rows) line' rest'

/-- No numeral of a text is too large. -/
def NoOversizedNumeral (text : List Char) : Prop :=
  ∀ rows line rest, Split 1 text rows line rest → ¬ Oversized rest

end MiniPascal
