import MiniPascal.Fault
import MiniPascal.Text.Column
import MiniPascal.Trace

/-!
# The symbol table

A stack of scopes, each binding names to entries, and the list of all entries ever
declared. A name is looked up from the innermost scope outwards, and may be declared
once in each scope.

The first scope is `global`. A scope opened inside another is called by a hint and a
number, which counts such scopes over the whole life of the table.

Every operation answers with a `Response`: its result or the reason for refusing, the
table after it, and the events it logged. A refusal leaves the table as it was
(`table_leave_of_error`, `table_declare_of_error`), and a look-up always does
(`table_lookup`).
-/

namespace MiniPascal

/-- A declared name. The level counts the scopes around the one it is declared in. -/
structure Entry where
  name : String
  ty : Ty
  scope : String
  level : Nat
  line : Option Int
  deriving DecidableEq

/-- A scope and the entries declared in it, in the order of declaration. -/
structure Scope where
  name : String
  entries : List Entry
  deriving DecidableEq

/-- The entry of a name in a scope. -/
def Scope.find? (scope : Scope) (name : String) : Option Entry :=
  scope.entries.find? fun entry => entry.name == name

/-- The open scopes, innermost first; all entries in the order of declaration; and the
    number of scopes opened so far inside another. -/
structure SymbolTable where
  scopes : List Scope
  entries : Array Entry
  counter : Nat
  deriving DecidableEq

namespace SymbolTable

/-- The table before any scope is opened. -/
def empty : SymbolTable :=
  { scopes := [], entries := #[], counter := 0 }

/-- Why an operation is refused. -/
inductive Refusal
  | redeclared (name : String) (line : Option Int)
  | noScopeToLeave
  | noScopeOpen
  deriving DecidableEq

/-- What an operation answers. -/
structure Response (α : Type) where
  result : Except Refusal α
  table : SymbolTable
  log : List Event

/-- The number of open scopes. -/
def depth (table : SymbolTable) : Nat :=
  table.scopes.length

/-- The names of the open scopes, outermost first. -/
def scopeNames (table : SymbolTable) : List String :=
  (table.scopes.map Scope.name).reverse

/-! ### Operations -/

/-- The name of a scope opened inside another: the hint, or `scope` for want of one,
    and the number of the scope. -/
def innerName (hint : Option String) (number : Nat) : String :=
  let stem := match hint with
    | none | some "" => "scope"
    | some hint => hint
  s!"{stem}#{number}"

/-- Opens a scope and answers its name. -/
def enter (table : SymbolTable) (hint : Option String) : Response String :=
  match table.scopes with
  | [] =>
    { result := .ok "global"
      table := { table with scopes := [⟨"global", []⟩] }
      log := [.entered "global"] }
  | scopes =>
    let counter := table.counter + 1
    let name := innerName hint counter
    { result := .ok name
      table := { table with scopes := ⟨name, []⟩ :: scopes, counter }
      log := [.entered name] }

/-- Closes the innermost scope. -/
def leave (table : SymbolTable) : Response Unit :=
  match table.scopes with
  | [] => { result := .error .noScopeToLeave, table, log := [] }
  | scope :: scopes =>
    { result := .ok ()
      table := { table with scopes }
      log := [.left scope.name] }

/-- Declares a name in the innermost scope. -/
def declare (table : SymbolTable) (name : String) (ty : Ty) (line : Option Int) :
    Response Entry :=
  match table.scopes with
  | [] => { result := .error .noScopeOpen, table, log := [] }
  | scope :: scopes =>
    -- Only the innermost scope counts: a name may hide one of an outer scope.
    if (scope.find? name).isSome then
      { result := .error (.redeclared name line), table, log := [] }
    else
      let entry : Entry := { name, ty, scope := scope.name, level := scopes.length, line }
      { result := .ok entry
        table := { table with
          scopes := { scope with entries := scope.entries ++ [entry] } :: scopes
          entries := table.entries.push entry }
        log := [.inserted name ty scope.name] }

/-- The entry of a name, from the innermost scope that has one. -/
def find? (table : SymbolTable) (name : String) : Option Entry :=
  table.scopes.findSome? fun scope => scope.find? name

/-- Looks up a name. -/
def lookup (table : SymbolTable) (name : String) : Response (Option Entry) :=
  match table.scopes with
  | [] => { result := .error .noScopeOpen, table, log := [] }
  | scope :: _ =>
    { result := .ok (table.find? name), table, log := [.lookedUp name scope.name] }

/-! ### Operations leave alone what they do not name -/

@[simp]
theorem table_lookup (table : SymbolTable) (name : String) :
    (table.lookup name).table = table := by
  unfold lookup
  split <;> rfl

theorem table_leave_of_error {table : SymbolTable} {refusal : Refusal}
    (h : table.leave.result = .error refusal) : table.leave.table = table := by
  unfold leave at h ⊢
  split at h <;> simp_all

theorem table_declare_of_error {table : SymbolTable} {name : String} {ty : Ty}
    {line : Option Int} {refusal : Refusal}
    (h : (table.declare name ty line).result = .error refusal) :
    (table.declare name ty line).table = table := by
  unfold declare at h ⊢
  split
  · rfl
  · split
    · rfl
    · simp_all

/-- A look-up finds an entry if some open scope has one. -/
theorem lookup_eq_some_iff {table : SymbolTable} {name : String} {entry : Entry} :
    (table.lookup name).result = .ok (some entry) ↔ table.find? name = some entry := by
  unfold lookup
  split
  · next hscopes => simp [find?, hscopes]
  · simp

/-! ### The table as text -/

/-- The widths of the columns of the table, the last one apart. -/
def formatWidths : List Nat :=
  [20, 10, 18, 8]

/-- The row of an entry. -/
def formatEntry (entry : Entry) : String :=
  Text.row formatWidths
    [ entry.name, entry.ty.name, entry.scope, toString entry.level,
      match entry.line with
      | none => "-"
      | some line => toString line ]

/-- The table as text: a row for each entry, in the order of declaration. -/
def format (table : SymbolTable) : String :=
  if table.entries.isEmpty then "Empty symbol table."
  else
    Text.row formatWidths ["Name", "Type", "Scope", "Level", "Line"] ++ Text.rule 64 ++
      String.join (table.entries.toList.map formatEntry)

end SymbolTable

end MiniPascal
