import MiniPascal.Fault
import MiniPascal.Lexer.Words

/-!
# Lexers

A lexer stands before the characters it has not consumed yet, the first of which is the
current one. It counts the lines it has passed and keeps a table of the words it knows.

A fresh lexer stands before a space that precedes its text, so that the current
character is one already handed out; the space is blank and changes no token.
-/

namespace MiniPascal

/-- A lexer on its way through a text. -/
structure Lexer where
  /-- The characters not consumed yet, the current one first. -/
  text : List Char
  line : Nat
  words : Words
  deriving DecidableEq

/-- Why a scan yields no token. A text may be unreadable beyond a point. -/
inductive ScanFailure
  | lexical (cause : LexicalCause)
  | oversizedNumeral
  | realOverflow
  | unreadable (failure : Text.DecodingFailure)
  deriving DecidableEq, Repr

namespace Lexer

/-- What a step of a lexer yields, and the lexer after it. -/
abbrev Outcome (α : Type) := Except ScanFailure α × Lexer

/-- A lexer before the first character of a text. -/
def ofChars (text : List Char) : Lexer :=
  { text := ' ' :: text, line := 1, words := .reserved }

/-- A lexer before the first character of a text. -/
def ofText (text : String) : Lexer :=
  ofChars text.toList

/-- The current character, or none at the end of the text. -/
def current (lexer : Lexer) : Option Char :=
  lexer.text.head?

/-- The lexer at the next character; it counts no lines. -/
def advance (lexer : Lexer) : Lexer :=
  { lexer with text := lexer.text.tail }

/-- Goes to the next character, and past it if it is `c`, where none is the end of the text. -/
def advanceIf (lexer : Lexer) (c : Option Char) : Bool × Lexer :=
  if lexer.advance.current = c then (true, lexer.advance.advance)
  else (false, lexer.advance)

/-- The lexer with a word stored in its table. -/
def reserve (lexer : Lexer) (token : Token) : Lexer :=
  { lexer with words := lexer.words.insert token }

end Lexer

end MiniPascal
