import MiniPascal.Proofs.Elaboration

/-!
# What becomes of a symbol table

Two ways in which a table goes on from an earlier one. After declarations its innermost scope
binds more names, each of them for the first time (`SymbolTable.Takes`); after statements its
open scopes are the same, and the scopes opened and closed on the way have left their entries
and have been counted (`SymbolTable.Notes`). Either way the new entries are those that the
elaboration calls for, and the old ones stay as they are.

A body opens a scope, takes its declarations, notes its statements and closes the scope. All
of that comes to noting the body (`SymbolTable.notes_body`).
-/

namespace MiniPascal

/-! ### Scopes -/

/-- A scope goes on with new entries, which bind names that it has not bound before. What is
    bound stays bound to the same entry. -/
structure Scope.Extends (scope scope' : Scope) (new : List Entry) : Prop where
  name : scope'.name = scope.name
  entries : scope'.entries = scope.entries ++ new
  keeps : ∀ name entry, scope.find? name = some entry → scope'.find? name = some entry
  binds : ∀ entry ∈ new, scope.find? entry.name = none ∧ scope'.find? entry.name = some entry

namespace Scope.Extends

theorem refl (scope : Scope) : scope.Extends scope [] where
  name := rfl
  entries := (List.append_nil _).symm
  keeps _ _ h := h
  binds _ h := absurd h List.not_mem_nil

theorem trans {scope scope' scope'' : Scope} {new new' : List Entry} (h : scope.Extends scope' new)
    (h' : scope'.Extends scope'' new') : scope.Extends scope'' (new ++ new') where
  name := h'.name.trans h.name
  entries := by rw [h'.entries, h.entries, List.append_assoc]
  keeps name entry hfind := h'.keeps name entry (h.keeps name entry hfind)
  binds entry hmem := by
    rcases List.mem_append.1 hmem with hmem | hmem
    · obtain ⟨hnone, hsome⟩ := h.binds entry hmem
      exact ⟨hnone, h'.keeps _ _ hsome⟩
    · obtain ⟨hnone, hsome⟩ := h'.binds entry hmem
      refine ⟨?_, hsome⟩
      cases hfind : scope.find? entry.name with
      | none => rfl
      | some old =>
        rw [h.keeps _ _ hfind] at hnone
        cases hnone

/-- A new entry binds a name that the scope has not bound. -/
theorem single {scope : Scope} {entry : Entry} (h : scope.find? entry.name = none) :
    scope.Extends { scope with entries := scope.entries ++ [entry] } [entry] where
  name := rfl
  entries := rfl
  keeps name old hfind := by
    rw [find?] at hfind ⊢
    rw [List.find?_append, hfind, Option.some_or]
  binds entry' hmem := by
    obtain rfl := List.mem_singleton.1 hmem
    refine ⟨h, ?_⟩
    rw [find?] at h ⊢
    rw [List.find?_append, h, Option.none_or]
    simp

end Scope.Extends

namespace SymbolTable

/-! ### Declarations -/

/-- A table takes declarations into its innermost scope. What they say of the names depends on
    the name and the level of that scope. -/
def Takes (declared : String → Nat → List Declaration) (t t' : SymbolTable) : Prop :=
  ∀ scope outer, t.scopes = scope :: outer → ∃ scope' new, scope.Extends scope' new ∧
    t'.scopes = scope' :: outer ∧ t'.entries.toList = t.entries.toList ++ new ∧
    t'.counter = t.counter ∧ new.map Entry.declaration = declared scope.name outer.length

variable {t t₁ t' : SymbolTable}

theorem Takes.refl (t : SymbolTable) : Takes (fun _ _ => []) t t :=
  fun scope _ h => ⟨scope, [], .refl scope, h, (List.append_nil _).symm, rfl, rfl⟩

theorem Takes.trans {declared declared' : String → Nat → List Declaration}
    (h : Takes declared t t₁) (h' : Takes declared' t₁ t') :
    Takes (fun scope level => declared scope level ++ declared' scope level) t t' := by
  intro scope outer hscopes
  obtain ⟨scope₁, new, hextends, hscopes₁, hentries, hcounter, hnew⟩ := h scope outer hscopes
  obtain ⟨scope', new', hextends', hscopes', hentries', hcounter', hnew'⟩ :=
    h' scope₁ outer hscopes₁
  refine ⟨scope', new ++ new', hextends.trans hextends', hscopes', ?_, hcounter'.trans hcounter, ?_⟩
  · rw [hentries', hentries, List.append_assoc]
  · rw [List.map_append, hnew, hnew', hextends.name]

theorem takes_declare {name : String} {ty : Ty} {line : Option Int} {entry : Entry}
    (h : (t.declare name ty line).result = .ok entry) :
    Takes (Declaration.named ty [name]) t (t.declare name ty line).table := by
  intro scope outer hscopes
  simp only [declare, hscopes] at h ⊢
  split at h
  · cases h
  · next hfind =>
    rw [if_neg hfind]
    refine ⟨_, _, .single (Option.not_isSome_iff_eq_none.1 hfind), rfl, ?_, rfl, rfl⟩
    exact Array.toList_push

/-! ### Statements -/

/-- A table notes bodies, which may depend on the level of its innermost scope: they have been
    counted, and their entries added. -/
def Notes (sites : Nat → List Site) (t t' : SymbolTable) : Prop :=
  ∀ level, t.scopes.length = level + 1 → t'.scopes = t.scopes ∧
    t'.counter = t.counter + (sites level).length ∧ ∃ new,
      t'.entries.toList = t.entries.toList ++ new ∧
        new.map Entry.declaration = Site.elaboration (t.counter + 1) (sites level)

theorem Notes.refl (t : SymbolTable) : Notes (fun _ => []) t t :=
  fun _ _ => ⟨rfl, rfl, [], (List.append_nil _).symm, rfl⟩

theorem Notes.trans {sites sites' : Nat → List Site} (h : Notes sites t t₁)
    (h' : Notes sites' t₁ t') : Notes (fun level => sites level ++ sites' level) t t' := by
  intro level hlevel
  obtain ⟨hscopes, hcounter, new, hentries, hnew⟩ := h level hlevel
  obtain ⟨hscopes', hcounter', new', hentries', hnew'⟩ := h' level (hscopes ▸ hlevel)
  refine ⟨hscopes'.trans hscopes, ?_, new ++ new', ?_, ?_⟩
  · rw [hcounter', hcounter, List.length_append, Nat.add_assoc]
  · rw [hentries', hentries, List.append_assoc]
  · rw [List.map_append, hnew, hnew', Site.elaboration_append, hcounter, Nat.add_right_comm]

/-- The stem of the name of a scope opened inside another. -/
def stem : Option String → String
  | none | some "" => "scope"
  | some hint => hint

theorem enter_table_of_cons {scope : Scope} {outer : List Scope} (h : t.scopes = scope :: outer)
    (hint : Option String) : (t.enter hint).table =
      { t with
        scopes := ⟨s!"{stem hint}#{t.counter + 1}", []⟩ :: t.scopes
        counter := t.counter + 1 } := by
  rw [enter, h]
  rfl

theorem leave_table_of_cons {scope : Scope} {outer : List Scope} (h : t.scopes = scope :: outer) :
    t.leave.table = { t with scopes := outer } := by
  rw [leave]
  split <;> simp_all

/-- A scope that is opened for a body, and closed after the body, leaves its entries. -/
theorem notes_body {hint : Option String} {decls : List Decl} {sites : Nat → List Site}
    (htakes : Takes (Decl.declared decls) (t.enter hint).table t₁) (hnotes : Notes sites t₁ t') :
    Notes (fun level => ⟨stem hint, level + 1, decls⟩ :: sites (level + 1)) t t'.leave.table := by
  intro level hlevel
  obtain ⟨scope, outer, hscopes⟩ := List.exists_cons_of_length_eq_add_one hlevel
  obtain ⟨scope', new, -, hscopes₁, hentries₁, hcounter₁, hnew⟩ :=
    htakes ⟨s!"{stem hint}#{t.counter + 1}", []⟩ t.scopes (by rw [enter_table_of_cons hscopes])
  rw [enter_table_of_cons hscopes] at hentries₁ hcounter₁
  have hlevel₁ : t₁.scopes.length = level + 1 + 1 := by
    rw [hscopes₁, List.length_cons, hlevel]
  obtain ⟨hscopes', hcounter', new', hentries', hnew'⟩ := hnotes (level + 1) hlevel₁
  rw [leave_table_of_cons (hscopes'.trans hscopes₁)]
  refine ⟨rfl, ?_, new ++ new', ?_, ?_⟩
  · rw [hcounter', hcounter₁, List.length_cons, Nat.add_assoc, Nat.add_comm 1]
  · rw [hentries', hentries₁, List.append_assoc]
  · rw [List.map_append, hnew, hnew', hcounter₁, hlevel, Site.elaboration_cons]
    rfl

/-! ### Programs -/

/-- The table in which a program is checked, with the global scope open. -/
def global : SymbolTable :=
  { scopes := [⟨"global", []⟩], entries := #[], counter := 0 }

/-- The global scope, with the declarations of a program taken and its statements noted, leaves
    the elaboration of the program. -/
theorem elaboration_of_notes {p : Program} (htakes : Takes (Decl.declared p.decls) global t₁)
    (hnotes : Notes p.stmts.sites t₁ t') : t'.leave.table.scopes = [] ∧
      t'.leave.table.entries.toList.map Entry.declaration = p.elaboration := by
  obtain ⟨scope, new, -, hscopes, hentries, hcounter, hnew⟩ := htakes _ _ rfl
  obtain ⟨hscopes', -, new', hentries', hnew'⟩ := hnotes 0 (by rw [hscopes]; rfl)
  rw [leave_table_of_cons (hscopes'.trans hscopes)]
  refine ⟨rfl, ?_⟩
  rw [hentries', hentries, List.map_append, List.map_append, hnew, hnew', hcounter]
  rfl

end SymbolTable

end MiniPascal
