import Mathlib.Logic.Function.Basic
import MiniPascal.SymbolTable

/-!
# Symbol tables in other words

A symbol table compares names, and it keeps lines without looking at them. So to translate
the names and the lines of a table and then to do an operation comes to the same as to do it
first and to translate the answer (`SymbolTable.enter_translate`, `leave_translate`,
`declare_translate`, `lookup_translate`), provided that no two names are translated alike.
-/

namespace MiniPascal

/-- A translation of names and lines. -/
structure Translation where
  name : String → String
  line : Option Int → Option Int
  injective : Function.Injective name

/-- Nothing is translated. -/
def Translation.id : Translation :=
  ⟨fun name => name, fun line => line, Function.injective_id⟩

variable (T : Translation)

/-- An entry in other words. -/
def Entry.translate (entry : Entry) : Entry :=
  { entry with name := T.name entry.name, line := T.line entry.line }

/-- A scope in other words. -/
def Scope.translate (scope : Scope) : Scope :=
  { scope with entries := scope.entries.map (Entry.translate T) }

theorem Scope.find?_translate (scope : Scope) (name : String) :
    (scope.translate T).find? (T.name name) = (scope.find? name).map (Entry.translate T) := by
  have hsame : ((fun entry => entry.name == T.name name) ∘ Entry.translate T) =
      fun entry => entry.name == name := by
    funext entry
    simp [Entry.translate, T.injective.eq_iff]
  rw [find?, translate, List.find?_map, hsame, find?]

namespace SymbolTable

/-- A table in other words. -/
def translate (table : SymbolTable) : SymbolTable :=
  { table with
    scopes := table.scopes.map (Scope.translate T)
    entries := table.entries.map (Entry.translate T) }

/-- A reason for refusing in other words. -/
def Refusal.translate : Refusal → Refusal
  | redeclared name line => redeclared (T.name name) (T.line line)
  | refusal => refusal

/-- A result in other words, given those for what it holds. -/
def translateResult {α : Type} (value : α → α) : Except Refusal α → Except Refusal α
  | .ok a => .ok (value a)
  | .error refusal => .error (refusal.translate T)

/-- The second response is the first in other words, the logs apart. -/
structure Response.Translates {α : Type} (value : α → α) (r r' : Response α) : Prop where
  result : r'.result = translateResult T value r.result
  table : r'.table = r.table.translate T

variable (table : SymbolTable)

theorem translate_id : table.translate .id = table := by
  have hentry : Entry.translate .id = id := rfl
  have hscope : Scope.translate .id = id := by
    funext scope
    rw [Scope.translate, hentry, List.map_id]
    rfl
  rw [translate, hentry, hscope, List.map_id, Array.map_id]

theorem translate_empty : empty.translate T = empty := by
  simp [translate, empty]

theorem find?_translate (name : String) :
    (table.translate T).find? (T.name name) = (table.find? name).map (Entry.translate T) := by
  rw [find?, find?, translate]
  induction table.scopes with
  | nil => rfl
  | cons scope scopes ih =>
    rw [List.map_cons, List.findSome?_cons, List.findSome?_cons, Scope.find?_translate, ih]
    cases scope.find? name <;> rfl

/-! ### Operations -/

theorem enter_translate (hint : Option String) :
    (table.enter hint).Translates T id ((table.translate T).enter hint) := by
  obtain ⟨scopes, entries, counter⟩ := table
  cases scopes <;> exact ⟨rfl, rfl⟩

theorem leave_translate : table.leave.Translates T id (table.translate T).leave := by
  obtain ⟨scopes, entries, counter⟩ := table
  cases scopes <;> exact ⟨rfl, rfl⟩

theorem declare_translate (name : String) (ty : Ty) (line : Option Int) :
    (table.declare name ty line).Translates T (Entry.translate T)
      ((table.translate T).declare (T.name name) ty (T.line line)) := by
  obtain ⟨scopes, entries, counter⟩ := table
  cases scopes with
  | nil => exact ⟨rfl, rfl⟩
  | cons scope scopes =>
    have hfind := congrArg Option.isSome (Scope.find?_translate T scope name)
    rw [Option.isSome_map] at hfind
    simp only [declare, translate, List.map_cons, hfind]
    split
    · exact ⟨rfl, rfl⟩
    · refine ⟨?_, ?_⟩ <;> simp [translateResult, translate, Entry.translate, Scope.translate]

theorem lookup_translate (name : String) :
    (table.lookup name).Translates T (Option.map (Entry.translate T))
      ((table.translate T).lookup (T.name name)) where
  result := by
    have hfind := find?_translate T table name
    obtain ⟨scopes, entries, counter⟩ := table
    cases scopes with
    | nil => rfl
    | cons scope scopes => exact congrArg Except.ok hfind
  table := by rw [table_lookup, table_lookup]

end SymbolTable

end MiniPascal
