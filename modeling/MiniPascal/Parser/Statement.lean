import MiniPascal.Parser.Declaration
import MiniPascal.Parser.Expression

/-!
# Statements and programs

The grammar of statements and programs:

    program     ::= PROGRAM [decl-list] BEGIN stmt-list END
    stmt-list   ::= stmt {';' stmt}
    stmt        ::= assign | if-stmt | while-stmt | repeat-stmt | read-stmt | write-stmt
    assign      ::= ID '=' simple-expr
    if-stmt     ::= IF expression THEN body [ELSE body] END
    while-stmt  ::= WHILE expression DO body END
    repeat-stmt ::= REPEAT body UNTIL expression
    read-stmt   ::= IN '(' ID ')'
    write-stmt  ::= OUT '(' writable ')'
    writable    ::= LITERAL | simple-expr
    body        ::= [decl-list] stmt-list

A body has a scope of its own, which is closed before what follows the body is judged;
so the condition of a `repeat` does not see the names declared in its body.

As for expressions, the procedures take how nested parts are read as an argument
(`Nested`), and a budget bounds the nesting (`nested`).
-/

namespace MiniPascal

/-- The bodies of statements. -/
inductive BodyKind
  | ifThen
  | ifElse
  | whileBody
  | repeatBody
  deriving DecidableEq, Repr

/-- The hint that a body's scope is called by. -/
def BodyKind.hint : BodyKind → String
  | ifThen => "if_then"
  | ifElse => "if_else"
  | whileBody => "while_body"
  | repeatBody => "repeat_body"

/-- How the nested parts of a statement are read. -/
structure Nested where
  /-- The expression within parentheses. -/
  inner : Parsing Ty
  /-- The body of a statement. -/
  body : BodyKind → Parsing Unit

namespace Parsing

/-- The condition of a statement. -/
def condition (inner : Parsing Ty) : Parsing Ty :=
  expression inner

/-- What may be written out: a literal or a simple expression. -/
def writable (inner : Parsing Ty) : Parsing Unit := do
  if ← looking (· = .literal) then
    let _ ← expect .literal
  else
    let _ ← simpleExpr inner

/-- An assignment. The value must have exactly the type of the name. -/
def assignStmt (inner : Parsing Ty) : Parsing Unit := do
  let name := (← expect .ident).text
  let target ← lookup name
  let _ ← expect .assign
  let value ← simpleExpr inner
  if value = target then return () else failSemantic (.assignment name target value)

/-- A conditional statement. -/
def ifStmt (nested : Nested) : Parsing Unit := do
  let _ ← expect .kwIf
  requireBool (← condition nested.inner) "'if' condition"
  let _ ← expect .kwThen
  nested.body .ifThen
  if ← looking (· = .kwElse) then
    let _ ← expect .kwElse
    nested.body .ifElse
  let _ ← expect .kwEnd

/-- A loop that tests before its body. -/
def whileStmt (nested : Nested) : Parsing Unit := do
  let _ ← expect .kwWhile
  requireBool (← condition nested.inner) "'while' condition"
  let _ ← expect .kwDo
  nested.body .whileBody
  let _ ← expect .kwEnd

/-- A loop that tests after its body. -/
def repeatStmt (nested : Nested) : Parsing Unit := do
  let _ ← expect .kwRepeat
  nested.body .repeatBody
  let _ ← expect .kwUntil
  requireBool (← condition nested.inner) "'until' condition"

/-- A statement that reads a value into a name. -/
def readStmt : Parsing Unit := do
  let _ ← expect .kwIn
  let _ ← expect .leftParen
  let _ ← lookup (← expect .ident).text
  let _ ← expect .rightParen

/-- A statement that writes something out. -/
def writeStmt (inner : Parsing Ty) : Parsing Unit := do
  let _ ← expect .kwOut
  let _ ← expect .leftParen
  writable inner
  let _ ← expect .rightParen

/-- A statement. -/
def stmt (nested : Nested) : Parsing Unit := do
  match ← lookKind? with
  | none => failSyntax .statement
  | some .ident => assignStmt nested.inner
  | some .kwIf => ifStmt nested
  | some .kwWhile => whileStmt nested
  | some .kwRepeat => repeatStmt nested
  | some .kwIn => readStmt
  | some .kwOut => writeStmt nested.inner
  | some _ => failSyntax .statementStart

/-- Statements separated by semicolons. -/
def stmtList (nested : Nested) : Parsing Unit := do
  stmt nested
  whileLooking (· = .semicolon) () fun _ _ => do
    let _ ← expect .semicolon
    stmt nested

/-- Declarations and statements in a scope of their own. -/
def block (nested : Nested) (hint : Option String) : Parsing Unit := do
  enterScope hint
  optionalDecls
  stmtList nested
  leaveScope

/-- The body of a statement; each level costs 4 of the budget. -/
def body : Nat → BodyKind → Parsing Unit
  -- A body and the expressions in it draw on what is left of one budget.
  | budget + 4 => fun kind => block ⟨parenthesized budget, body budget⟩ (some kind.hint)
  | _ => fun _ => throw .tooDeep

/-- Nested parts within a budget. -/
def nested (budget : Nat) : Nested :=
  ⟨parenthesized budget, body budget⟩

/-- What nesting may cost. -/
def nestingBudget : Nat :=
  10000

/-- Nested parts within the budget of a program. -/
def nestedParts : Nested :=
  nested nestingBudget

/-- A program. -/
def program (nested : Nested) : Parsing Unit := do
  let _ ← expect .kwProgram
  optionalDecls
  let _ ← expect .kwBegin
  stmtList nested
  let _ ← expect .kwEnd

/-- A program and nothing after it. -/
def parse (nested : Nested) : Parsing Unit := do
  program nested
  if (← get).look.isSome then failSyntax .endOfText
  leaveScope

end Parsing

end MiniPascal
