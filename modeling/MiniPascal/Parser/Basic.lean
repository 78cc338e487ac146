import MiniPascal.Lexer.Stream
import MiniPascal.SymbolTable

/-!
# Parsers

A parser reads a stream of scans one token ahead and checks scopes and types on the way.
Its state is the scans still to come, the token it looks at, the line the scanning has
reached, the symbol table and the log.

A procedure of the parser is a computation on that state (`Parsing`). It may be
interrupted, by a fault of the text, by an abort, or by nesting that is too deep; the
state is then left as it was at the interruption.

No procedure sees more of the stream than the token it looks at: it moves on with
`move`, and what it does depends on kinds (`looking`, `expect`) and names alone.
-/

namespace MiniPascal

/-- The state of a parser. -/
structure Parser where
  /-- The scans still to come. -/
  pending : List Scan
  /-- The token looked at, or none at the end of the text. -/
  look : Option Token
  /-- The line reached by the last scan. -/
  line : Nat
  symbols : SymbolTable
  log : Array Event

/-- What interrupts a parser. -/
inductive Interrupt
  | fault (fault : Fault)
  | abort (abort : Abort)
  | tooDeep
  deriving DecidableEq

/-- A procedure of the parser. -/
abbrev Parsing (α : Type) := EStateM Interrupt Parser α

/-- A parser before the first scan of a stream. -/
def Parser.ofScans (scans : List Scan) : Parser :=
  { pending := scans, look := none, line := 1, symbols := .empty, log := #[] }

/-- A parser before the first token of a text. -/
def Parser.ofText (text : String) : Parser :=
  .ofScans (Lexer.ofText text).scans

namespace Parsing

/-! ### Tokens -/

/-- The interruption by a failed scan. -/
def failScan {α : Type} (line : Nat) : ScanFailure → Parsing α
  | .lexical cause => throw (.fault ⟨.lexical cause, some line⟩)
  | .oversizedNumeral => throw (.abort .oversizedNumeral)
  | .realOverflow => throw (.abort .realOverflow)
  | .unreadable failure => throw (.abort (.unreadable failure))

/-- Looks at the next token. A failed scan leaves the parser looking at the last one. -/
def move : Parsing Unit := do
  let parser ← get
  match parser.pending with
  | [] =>
    set { parser with look := none, log := parser.log.push (.scanned parser.line none) }
  | ⟨.ok token, lexer⟩ :: pending =>
    set { parser with
      pending
      look := token
      line := lexer.line
      log := parser.log.push (.scanned lexer.line token) }
  | ⟨.error failure, lexer⟩ :: pending =>
    set { parser with pending, line := lexer.line }
    failScan lexer.line failure

/-- The interruption by a token other than called for. -/
def failSyntax {α : Type} (expectation : Expectation) : Parsing α := do
  let parser ← get
  throw (.fault ⟨.syntactic expectation parser.look, some parser.line⟩)

/-- The interruption by a breach of the rules of scopes and types. -/
def failSemantic {α : Type} (cause : SemanticCause) : Parsing α := do
  let parser ← get
  throw (.fault ⟨.semantic cause, some parser.line⟩)

/-- The kind of the token looked at. -/
def lookKind? : Parsing (Option Kind) := do
  return (← get).look.map Token.kind

/-- Whether the token looked at is of a kind that satisfies `p`. -/
def looking (p : Kind → Bool) : Parsing Bool := do
  return (← lookKind?).any p

/-- Moves past a token of the given kind and answers it. -/
def expect (kind : Kind) : Parsing Token := do
  match (← get).look with
  | some token =>
    if token.kind = kind then
      move
      return token
    else failSyntax (.token kind)
  | none => failSyntax (.token kind)

/-- Repeats a step as long as the token looked at is of a kind that satisfies `p`. Each
    step moves on, so `fuel` steps are enough where `fuel` tokens are left. -/
def repeatWhile {α : Type} (p : Kind → Bool) (step : Kind → α → Parsing α) :
    Nat → α → Parsing α
  -- Not reached with more fuel than tokens.
  | 0, a => return a
  | fuel + 1, a => do
    match ← lookKind? with
    | none => return a
    | some kind => if p kind then repeatWhile p step fuel (← step kind a) else return a

/-- More than the number of tokens left. -/
def fuel : Parsing Nat := do
  return (← get).pending.length + 2

/-- Repeats a step as long as the token looked at is of a kind that satisfies `p`. -/
def whileLooking {α : Type} (p : Kind → Bool) (start : α) (step : Kind → α → Parsing α) :
    Parsing α := do
  repeatWhile p step (← fuel) start

/-! ### Scopes and names -/

/-- The interruption by a refusal of the symbol table. -/
def failRefusal {α : Type} : SymbolTable.Refusal → Parsing α
  | .redeclared name line => throw (.fault ⟨.semantic (.redeclared name), line⟩)
  | .noScopeToLeave => throw (.abort .noScopeToLeave)
  | .noScopeOpen => throw (.abort .noScopeOpen)

/-- Does an operation of the symbol table. -/
def onSymbols {α : Type} (operation : SymbolTable → SymbolTable.Response α) : Parsing α := do
  let parser ← get
  let response := operation parser.symbols
  set { parser with
    symbols := response.table
    log := parser.log ++ response.log }
  match response.result with
  | .ok a => return a
  | .error refusal => failRefusal refusal

/-- Opens a scope. -/
def enterScope (hint : Option String) : Parsing Unit := do
  let _ ← onSymbols (·.enter hint)

/-- Closes the innermost scope. -/
def leaveScope : Parsing Unit :=
  onSymbols (·.leave)

/-- Declares a name on the line reached. -/
def declare (name : String) (ty : Ty) : Parsing Unit := do
  let line := (← get).line
  let _ ← onSymbols (·.declare name ty (some line))

/-- The type of a declared name. -/
def lookup (name : String) : Parsing Ty := do
  match ← onSymbols (·.lookup name) with
  | some entry => return entry.ty
  | none => failSemantic (.undeclared name)

/-! ### Types -/

/-- The type of an arithmetic operation. -/
def arithmetic (left right : Ty) : Parsing Ty := do
  let ty := Ty.promote left right
  if ty = .error then failSemantic (.arithmetic left right) else return ty

/-- The type of an operation of `simpleExpr` or `term`: `||` and `&&` are logical if both
    operands are, and arithmetic otherwise. -/
def binary (op : Kind) (left right : Ty) : Parsing Ty :=
  if (op = .or ∨ op = .and) ∧ left = .bool ∧ right = .bool then return .bool
  else arithmetic left right

/-- Requires a type to be `bool`. -/
def requireBool (ty : Ty) (what : String) : Parsing Unit :=
  if ty = .bool then return () else failSemantic (.notBool what ty)

/-- Makes a fresh parser look at the first token, in the global scope. -/
def start : Parsing Unit := do
  move
  enterScope (some "global")

end Parsing

end MiniPascal
