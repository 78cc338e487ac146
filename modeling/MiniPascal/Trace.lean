import MiniPascal.Token.Basic
import MiniPascal.Ty

/-!
# The trace of a run

A run of the checker leaves a log of what it did: every token scanned, every scope
entered and left, every name inserted into the symbol table and looked up in it. What
is shown of the log depends on the level of detail: `info` leaves out the tokens,
`debug` shows all.
-/

namespace MiniPascal

/-- How much of a log is shown. -/
inductive Level
  | info
  | debug
  deriving DecidableEq, Repr

/-- A step worth logging. A scan without a token is one at the end of the text. -/
inductive Event
  | scanned (line : Nat) (token : Option Token)
  | entered (scope : String)
  | left (scope : String)
  | inserted (name : String) (ty : Ty) (scope : String)
  | lookedUp (name : String) (scope : String)
  deriving DecidableEq

namespace Event

/-- The level of detail an event belongs to. -/
def level : Event → Level
  | scanned _ _ => .debug
  | _ => .info

/-- Whether an event is shown at a level. -/
def shownAt (event : Event) : Level → Bool
  | .debug => true
  | .info => event.level = .info

/-- The line of the log that reports an event. -/
def text : Event → String
  | scanned line (some token) => s!"line {line}: {token.kind.name} {token.text}"
  | scanned line none => s!"line {line}: EOF None"
  | entered scope => s!"ENTER scope {scope}"
  | left scope => s!"LEAVE scope {scope}"
  | inserted name ty scope => s!"Insert: {name} ({ty.name}) in {scope}"
  | lookedUp name scope => s!"Lookup: {name}. (Scope name: {scope})"

end Event

/-- The lines that a log shows at a level. -/
def Level.lines (level : Level) (log : List Event) : List String :=
  (log.filter (·.shownAt level)).map Event.text

end MiniPascal
