/-!
# Types

The types of the language and the rules of its operators. `promote` gives the type of
an arithmetic operation: a character beside an integer is read as an integer, an integer
beside a float as a float, and any other mix has no type, for which `error` stands.
`error` is never the type of anything declared.

The rules are symmetric (`promote_comm`), but do not associate: a character may be
added to an integer and the sum to a float, but not a character to a float.
-/

namespace MiniPascal

/-- A type, or `error` for the lack of one. -/
inductive Ty
  | int
  | float
  | char
  | bool
  | error
  deriving DecidableEq, Repr

namespace Ty

/-- The name of a type. -/
def name : Ty → String
  | int => "Int"
  | float => "Float"
  | char => "Char"
  | bool => "Bool"
  | error => "Error"

/-- All types. -/
def all : List Ty :=
  [int, float, char, bool, error]

/-- The type of a name. -/
def ofName? (s : String) : Option Ty :=
  all.find? fun ty => ty.name == s

/-- The types of numbers. -/
def isNumeric : Ty → Bool
  | int | float => true
  | _ => false

/-- The type of an arithmetic operation on operands of two types. -/
def promote : Ty → Ty → Ty
  | int, int => int
  | int, float | float, int | float, float => float
  | int, char | char, int => int
  | _, _ => error

/-- Whether values of two types may be compared. -/
def comparable (left right : Ty) : Bool :=
  promote left right ≠ error

/-- Whether a type may be negated. -/
def negatable (ty : Ty) : Bool :=
  ty.isNumeric || ty = char

theorem promote_comm (left right : Ty) : promote left right = promote right left := by
  cases left <;> cases right <;> rfl

/-- Two types have a common one if both are numeric or one is `char` and the other `int`. -/
theorem comparable_iff (left right : Ty) :
    comparable left right = true ↔ (left.isNumeric ∧ right.isNumeric) ∨
      (left = char ∧ right = int) ∨ (left = int ∧ right = char) := by
  cases left <;> cases right <;> decide

end Ty

end MiniPascal
