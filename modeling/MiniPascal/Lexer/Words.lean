import MiniPascal.Association
import MiniPascal.Token.Basic

/-!
# The word table

The words a lexer knows, each with its token: the reserved words to begin with, then
every name in the order in which it was first met. A word is known by the payload of
its token, which is its lowercase lexeme. Storing a known word again replaces its
token and keeps its place.
-/

namespace MiniPascal

/-- The words a lexer knows. -/
structure Words where
  entries : List (Payload × Token)
  deriving DecidableEq

namespace Words

/-- The token of a reserved word. -/
def reservedToken (kind : Kind) : Token :=
  Token.spelled kind

/-- The table of the reserved words alone. -/
def reserved : Words :=
  ⟨Kind.reservedWords.map fun kind => ((reservedToken kind).payload, reservedToken kind)⟩

/-- The token of a word, if it is known. -/
def get? (words : Words) (key : Payload) : Option Token :=
  words.entries.lookup key

/-- The table with a token stored under its payload. -/
def insert (words : Words) (token : Token) : Words :=
  ⟨Association.set token.payload token words.entries⟩

/-- The words stored after the reserved ones, in the order in which each was first stored. -/
def added (words : Words) : List Payload :=
  (words.entries.drop Kind.reservedWords.length).map Prod.fst

/-- A word just stored has the token it was stored with, and any other the one it had. -/
theorem get?_insert (words : Words) (token : Token) (key : Payload) :
    (words.insert token).get? key =
      if key = token.payload then some token else words.get? key :=
  Association.lookup_set token.payload key token words.entries

end Words

end MiniPascal
