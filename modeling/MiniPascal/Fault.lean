import MiniPascal.Text.Encoding
import MiniPascal.Token.Basic
import MiniPascal.Ty

/-!
# Faults of a program text

The first fault found in a text ends the check. A fault has a cause and a line. The
cause is lexical, syntactic or semantic; its wording is given here once for all
(`Cause.text`), as is the message that reports it (`Fault.message`).

What ends a run without a verdict on the text is not a fault but an `Abort`.
-/

namespace MiniPascal

/-- The class of a fault. -/
inductive Category
  | compilation
  | lexical
  | syntactic
  | semantic
  deriving DecidableEq, Repr

/-- The name of a class of faults. -/
def Category.name : Category → String
  | compilation => "Compilation"
  | lexical => "Lexical"
  | syntactic => "Syntax"
  | semantic => "Semantic"

/-- What keeps a stretch of text from being a lexeme or a comment. -/
inductive LexicalCause
  | unclosedComment
  | malformedChar
  | unclosedLiteral
  | pointWithoutDigit
  deriving DecidableEq, Repr

/-- The wording of a lexical cause. -/
def LexicalCause.text : LexicalCause → String
  | unclosedComment => "unterminated block comment"
  | malformedChar => "malformed character constant"
  | unclosedLiteral => "unterminated string literal"
  | pointWithoutDigit => "decimal point not followed by a digit in float literal"

/-- What the grammar calls for where another token is found. -/
inductive Expectation
  | token (kind : Kind)
  | typeName
  | statement
  | statementStart
  | factor
  | constant
  | endOfText
  | lessNesting
  deriving DecidableEq, Repr

/-- The wording of what was called for. -/
def Expectation.text : Expectation → String
  | token kind => s!"expected '{kind.text}'"
  | typeName => "expected a type"
  | statement => "expected a statement"
  | statementStart => "invalid start of statement"
  | factor => "expected a factor"
  | constant => "expected a constant"
  | endOfText => "unexpected tokens after 'end'"
  | lessNesting => "nesting too deep"

/-- What breaks the rules of scopes and types. -/
inductive SemanticCause
  | redeclared (name : String)
  | undeclared (name : String)
  | arithmetic (left right : Ty)
  | relation (left right : Ty)
  | assignment (name : String) (target value : Ty)
  | notBool (what : String) (found : Ty)
  | negation (found : Ty)
  deriving DecidableEq, Repr

/-- The wording of a semantic cause. -/
def SemanticCause.text : SemanticCause → String
  | redeclared name => s!"identifier '{name}' already declared in this block"
  | undeclared name => s!"identifier '{name}' not declared"
  | arithmetic left right =>
    s!"incompatible types in arithmetic operation ({left.name} x {right.name})"
  | relation left right =>
    s!"incompatible types in relational operator ({left.name} x {right.name})"
  | assignment name target value =>
    s!"expression type ({value.name}) incompatible with '{name}' ({target.name})"
  | notBool what found => s!"{what} must be Bool (found: {found.name})"
  | negation found =>
    s!"operand of unary '-' must be numeric or Char (found: {found.name})"

/-- The text of the token found where another was called for. -/
def foundText : Option Token → String
  | none => "EOF"
  | some token => token.text

/-- The wording of a syntactic cause. -/
def syntacticText (expectation found : String) : String :=
  s!"{expectation} (found: {found})"

/-- Why a text is rejected. -/
inductive Cause
  | lexical (cause : LexicalCause)
  | syntactic (expectation : Expectation) (found : Option Token)
  | semantic (cause : SemanticCause)
  deriving DecidableEq

/-- The class of a cause. -/
def Cause.category : Cause → Category
  | lexical _ => .lexical
  | syntactic _ _ => .syntactic
  | semantic _ => .semantic

/-- The wording of a cause. -/
def Cause.text : Cause → String
  | lexical cause => cause.text
  | syntactic expectation found => syntacticText expectation.text (foundText found)
  | semantic cause => cause.text

/-- The line of a fault in a message; a fault may have none. -/
def lineText : Option Int → String
  | none => "None"
  | some line => toString line

/-- The message that reports a fault of a class. -/
def Category.message (category : Category) (cause : String) (line : Option Int) : String :=
  s!"{category.name} error at line {lineText line}: {cause}"

/-- The first fault of a text, with the line where it was found. -/
structure Fault where
  cause : Cause
  line : Option Int
  deriving DecidableEq

/-- The message that reports a fault. -/
def Fault.message (fault : Fault) : String :=
  fault.cause.category.message fault.cause.text fault.line

/-- What ends a run without a verdict on the text. A numeral of more than 4300 digits
    cannot be shown, an integer part beyond the doubles has no value; the symbol table
    refuses to work without an open scope; a file may hold bytes that its encoding cannot
    read; and its encoding may be missing or one that nobody knows, or one of the two names
    hold a NUL. -/
inductive Abort
  | oversizedNumeral
  | realOverflow
  | noScopeToLeave
  | noScopeOpen
  | unreadable (failure : Text.DecodingFailure)
  | noEncoding
  | unknownEncoding
  | nameWithNul
  deriving DecidableEq, Repr

/-- The wording of an abort, for those that have one. -/
def Abort.text? : Abort → Option String
  | noScopeToLeave => some "pop from empty list"
  | noScopeOpen => some "list index out of range"
  | unreadable .unmarked => some "UTF-16 stream does not start with BOM"
  | noEncoding => some "open() argument 'encoding' must be str or None, not list"
  | _ => none

end MiniPascal
