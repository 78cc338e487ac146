import MiniPascal.Parser.Basic

/-!
# Expressions

The grammar of expressions, each procedure answering the type of what it has read:

    expression  ::= simple-expr [relop simple-expr]
    simple-expr ::= term {addop term}
    term        ::= factor-a {mulop factor-a}
    factor-a    ::= ['!' | '-'] factor
    factor      ::= ID | constant | '(' expression ')'

The procedures take as an argument how the expression within parentheses is read. It is
read by `parenthesized`, which spends part of a budget on each level, so that nesting
beyond the budget is refused.
-/

namespace MiniPascal

namespace Kind

/-- The relational operators. -/
def isRelational (kind : Kind) : Bool :=
  kind ∈ [equal, greater, greaterEqual, less, lessEqual, notEqual]

/-- The operators of `simple-expr`. -/
def isAdditive (kind : Kind) : Bool :=
  kind ∈ [plus, minus, or]

/-- The operators of `term`. -/
def isMultiplicative (kind : Kind) : Bool :=
  kind ∈ [times, divide, and]

/-- The type of a constant of a kind. -/
def constantType? : Kind → Option Ty
  | num => some .int
  | real => some .float
  | charConst => some .char
  | _ => none

end Kind

namespace Parsing

/-- A constant. -/
def constant : Parsing Ty := do
  match (← lookKind?).bind Kind.constantType? with
  | some ty =>
    move
    return ty
  | none => failSyntax .constant

/-- A factor: a name, a constant, or an expression within parentheses. -/
def factor (inner : Parsing Ty) : Parsing Ty := do
  match ← lookKind? with
  | some .ident => lookup (← expect .ident).text
  | some .leftParen =>
    let _ ← expect .leftParen
    let ty ← inner
    let _ ← expect .rightParen
    return ty
  | some kind => if kind.constantType?.isSome then constant else failSyntax .factor
  | none => failSyntax .factor

/-- A factor with a sign or a negation before it. -/
def factorA (inner : Parsing Ty) : Parsing Ty := do
  match ← lookKind? with
  | some .not =>
    move
    requireBool (← factor inner) "operand of '!'"
    return .bool
  | some .minus =>
    move
    let ty ← factor inner
    if ty.negatable then return ty else failSemantic (.negation ty)
  | _ => factor inner

/-- Operands joined by operators that satisfy `isOp`, from left to right. -/
def chain (isOp : Kind → Bool) (operand : Parsing Ty) : Parsing Ty := do
  let first ← operand
  whileLooking isOp first fun op left => do
    move
    binary op left (← operand)

/-- Factors joined by multiplicative operators. -/
def term (inner : Parsing Ty) : Parsing Ty :=
  chain Kind.isMultiplicative (factorA inner)

/-- Terms joined by additive operators. -/
def simpleExpr (inner : Parsing Ty) : Parsing Ty :=
  chain Kind.isAdditive (term inner)

/-- A simple expression or the comparison of two. -/
def expression (inner : Parsing Ty) : Parsing Ty := do
  let left ← simpleExpr inner
  if ← looking Kind.isRelational then
    move
    let right ← simpleExpr inner
    if left.comparable right then return .bool else failSemantic (.relation left right)
  else return left

/-- The expression within parentheses; each level costs 5 of the budget. -/
def parenthesized : Nat → Parsing Ty
  | budget + 5 => expression (parenthesized budget)
  | _ => throw .tooDeep

end Parsing

end MiniPascal
