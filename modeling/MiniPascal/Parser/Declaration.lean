import MiniPascal.Parser.Basic

/-!
# Declarations

The grammar of declarations; their names go into the innermost scope:

    decl-list  ::= decl {decl}
    decl       ::= type ':' ident-list ';'
    ident-list ::= ID {',' ID}
-/

namespace MiniPascal

/-- The type a kind names in a declaration. -/
def Kind.declaredType? : Kind → Option Ty
  | kwInt => some .int
  | kwFloat => some .float
  | kwChar => some .char
  | _ => none

/-- The kinds that begin a declaration. -/
def Kind.beginsDecl (kind : Kind) : Bool :=
  kind.declaredType?.isSome

namespace Parsing

/-- The name of a type. -/
def typeSpec : Parsing Ty := do
  match (← lookKind?).bind Kind.declaredType? with
  | some ty =>
    move
    return ty
  | none => failSyntax .typeName

/-- Declares the name looked at. The line is the one reached after it. -/
def declaredName (ty : Ty) : Parsing Unit := do
  declare (← expect .ident).text ty

/-- Names to declare, separated by commas. -/
def identList (ty : Ty) : Parsing Unit := do
  declaredName ty
  whileLooking (· = .comma) () fun _ _ => do
    let _ ← expect .comma
    declaredName ty

/-- A declaration. -/
def decl : Parsing Unit := do
  let ty ← typeSpec
  let _ ← expect .colon
  identList ty
  let _ ← expect .semicolon

/-- Declarations, at least one. -/
def declList : Parsing Unit := do
  decl
  whileLooking Kind.beginsDecl () fun _ _ => decl

/-- Declarations, if any. -/
def optionalDecls : Parsing Unit := do
  if ← looking Kind.beginsDecl then declList

end Parsing

end MiniPascal
