/-!
# Sources of characters

A source hands out the characters of a text one at a time, until the text is used up
or the source is closed.
-/

namespace MiniPascal.Text

/-- A text that is handed out one character at a time. -/
structure Source where
  rest : List Char
  closed : Bool

namespace Source

/-- The refusal of a source that was closed. -/
inductive Refusal
  | closed
  deriving DecidableEq, Repr

/-- A source of the characters of a text, none of them handed out yet. -/
def ofText (text : String) : Source :=
  { rest := text.toList, closed := false }

/-- The next character, or none at the end; a closed source refuses. -/
def read (source : Source) : Except Refusal (Option Char) × Source :=
  if source.closed then (.error .closed, source)
  else (.ok source.rest.head?, { source with rest := source.rest.tail })

/-- The source, closed. -/
def close (source : Source) : Source :=
  { source with closed := true }

theorem read_close (source : Source) : source.close.read.1 = .error .closed := rfl

end Source

end MiniPascal.Text
