import Mathlib.Data.Finmap
import MiniPascal.SymbolTable

/-!
# The symbol table as a stack of finite maps

A `ScopeStack` is what a symbol table is meant to be: the open scopes, each with a name and a
finite map from names to entries, the declarations so far, and a number. A symbol table answers
every operation as the stack does that it stands for, and stands for the stack after it
(`SymbolTable.perform_stack`), so it does all along any sequence of operations.

What a stack keeps with every operation holds of a table after any of them
(`SymbolTable.refines_stack`): a name is found in the innermost scope that binds it, only the
innermost scope can refuse one, a binding tells which scope it is in, and the entries are all
that was ever declared.
-/

namespace MiniPascal

/-! ### Operations -/

namespace SymbolTable

/-- An operation on a symbol table. -/
inductive Operation
  | enter (hint : Option String)
  | leave
  | declare (name : String) (ty : Ty) (line : Option Int)
  | lookup (name : String)

/-- What an operation comes to. -/
inductive Answer
  | entered (scope : String)
  | left
  | declared (entry : Entry)
  | found (entry : Option Entry)
  | refused (refusal : Refusal)

/-- The entry that a declaration has made. -/
def Answer.declared? : Answer → Option Entry
  | declared entry => some entry
  | _ => none

/-- A response as an answer, given what its result means, and the table after it. -/
def Response.answered {α : Type} (answer : α → Answer) (r : Response α) : Answer × SymbolTable :=
  match r.result with
  | .ok a => (answer a, r.table)
  | .error refusal => (.refused refusal, r.table)

theorem Response.answered_table {α : Type} (answer : α → Answer) (r : Response α) :
    (r.answered answer).2 = r.table := by
  rw [answered]
  split <;> rfl

theorem Response.error_of_answered {α : Type} {answer : α → Answer} {r : Response α}
    {refusal : Refusal} (hanswer : ∀ a, answer a ≠ .refused refusal)
    (h : (r.answered answer).1 = .refused refusal) : r.result = .error refusal := by
  rw [answered] at h
  split at h
  · exact absurd h (hanswer _)
  · next herror => rw [herror, Answer.refused.inj h]

/-- Does an operation. -/
def perform (table : SymbolTable) : Operation → Answer × SymbolTable
  | .enter hint => (table.enter hint).answered .entered
  | .leave => table.leave.answered fun _ => .left
  | .declare name ty line => (table.declare name ty line).answered .declared
  | .lookup name => (table.lookup name).answered .found

section Play

variable {σ τ : Type}

/-- Does operations one after another, whatever they are answered. -/
def play (step : σ → Operation → Answer × σ) (s : σ) : List Operation → List Answer × σ
  | [] => ([], s)
  | operation :: operations =>
    let (answer, next) := step s operation
    let (answers, last) := play step next operations
    (answer :: answers, last)

/-- What holds in the beginning, and after every operation if before it, holds at last. -/
theorem play_invariant {step : σ → Operation → Answer × σ} {P : σ → Prop}
    (hstep : ∀ s operation, P s → P (step s operation).2) {s : σ} (h : P s)
    (operations : List Operation) : P (play step s operations).2 := by
  induction operations generalizing s with
  | nil => exact h
  | cons operation operations ih => exact ih (hstep s operation h)

/-- Where every operation is answered alike, all of them are. -/
theorem play_map {step : σ → Operation → Answer × σ} {step' : τ → Operation → Answer × τ}
    {view : σ → τ} (hstep : ∀ s operation, step' (view s) operation =
      ((step s operation).1, view (step s operation).2)) (s : σ) (operations : List Operation) :
    play step' (view s) operations =
      ((play step s operations).1, view (play step s operations).2) := by
  induction operations generalizing s with
  | nil => rfl
  | cons operation operations ih => simp only [play, hstep, ih]

end Play

/-- What operations on a new table are answered. -/
def answers (operations : List Operation) : List Answer :=
  (play perform empty operations).1

/-- The table after operations on a new one. -/
def after (operations : List Operation) : SymbolTable :=
  (play perform empty operations).2

end SymbolTable

/-! ### Stacks -/

open SymbolTable

/-- A finite map from names to entries. -/
abbrev Bindings :=
  Finmap fun _ : String => Entry

/-- An open scope, with what it binds. -/
structure ScopeStack.Frame where
  name : String
  bindings : Bindings

/-- The open scopes, innermost first; the declarations so far; and the number of scopes opened so
    far inside another. -/
structure ScopeStack where
  scopes : List ScopeStack.Frame
  declared : List Entry
  counter : Nat

namespace ScopeStack

/-- The stack before any scope is opened. -/
def empty : ScopeStack :=
  { scopes := [], declared := [], counter := 0 }

/-- What the innermost scope that has a name binds it to. -/
def find? (stack : ScopeStack) (name : String) : Option Entry :=
  stack.scopes.findSome? fun scope => scope.bindings.lookup name

/-- Does an operation. -/
def perform (stack : ScopeStack) (operation : Operation) : Answer × ScopeStack :=
  match operation, stack.scopes with
  | .enter _, [] => (.entered "global", { stack with scopes := [⟨"global", ∅⟩] })
  | .enter hint, scopes =>
    let name := innerName hint (stack.counter + 1)
    (.entered name,
      { stack with scopes := ⟨name, ∅⟩ :: scopes, counter := stack.counter + 1 })
  | .leave, [] => (.refused .noScopeToLeave, stack)
  | .leave, _ :: outer => (.left, { stack with scopes := outer })
  | .declare .., [] => (.refused .noScopeOpen, stack)
  | .declare name ty line, scope :: outer =>
    if name ∈ scope.bindings then (.refused (.redeclared name line), stack)
    else
      let entry : Entry := { name, ty, scope := scope.name, level := outer.length, line }
      (.declared entry,
        { stack with
          scopes := ⟨scope.name, scope.bindings.insert name entry⟩ :: outer
          declared := stack.declared ++ [entry] })
  | .lookup _, [] => (.refused .noScopeOpen, stack)
  | .lookup name, _ => (.found (stack.find? name), stack)

/-- Every binding of a scope is of its own name, and tells the name of the scope and how many
    scopes are around it. -/
def Placed (scopes : List Frame) : Prop :=
  ∀ scope outer, scope :: outer <:+ scopes → ∀ name entry, scope.bindings.lookup name = some entry →
    entry.level = outer.length ∧ entry.scope = scope.name ∧ entry.name = name

theorem placed_nil : Placed [] := by
  intro scope outer h
  cases List.suffix_nil.1 h

theorem placed_cons_iff {scope : Frame} {outer : List Frame} :
    Placed (scope :: outer) ↔ Placed outer ∧ ∀ name entry, scope.bindings.lookup name = some entry →
      entry.level = outer.length ∧ entry.scope = scope.name ∧ entry.name = name := by
  constructor
  · intro h
    exact ⟨fun scope' outer' hsuffix => h scope' outer' (hsuffix.trans (List.suffix_cons _ _)),
      h scope outer List.suffix_rfl⟩
  · rintro ⟨houter, hscope⟩ scope' outer' hsuffix
    rcases List.suffix_cons_iff.1 hsuffix with heq | hsuffix
    · obtain ⟨rfl, rfl⟩ := List.cons.inj heq
      exact hscope
    · exact houter scope' outer' hsuffix

/-- The scopes are numbered from the outermost one. -/
theorem Placed.of_getElem? {scopes : List Frame} (h : Placed scopes) {i : Nat} {scope : Frame}
    (hscope : scopes.reverse[i]? = some scope) {name : String} {entry : Entry}
    (hentry : scope.bindings.lookup name = some entry) :
    entry.level = i ∧ entry.scope = scope.name ∧ entry.name = name := by
  have hi : i < scopes.length := by
    have := (List.getElem?_eq_some_iff.1 hscope).1
    rwa [List.length_reverse] at this
  rw [List.getElem?_reverse hi] at hscope
  obtain ⟨hlt, rfl⟩ := List.getElem?_eq_some_iff.1 hscope
  have hsuffix : scopes.drop (scopes.length - 1 - i) <:+ scopes := List.drop_suffix _ _
  rw [List.drop_eq_getElem_cons hlt] at hsuffix
  obtain ⟨hlevel, hplace⟩ := h _ _ hsuffix name entry hentry
  rw [List.length_drop] at hlevel
  exact ⟨by omega, hplace⟩

theorem placed_perform (stack : ScopeStack) (operation : Operation) (h : Placed stack.scopes) :
    Placed (stack.perform operation).2.scopes := by
  have hempty {name : String} {scopes : List Frame} (h : Placed scopes) :
      Placed (⟨name, ∅⟩ :: scopes) := by
    refine placed_cons_iff.2 ⟨h, fun name entry hlookup => ?_⟩
    rw [Finmap.lookup_empty] at hlookup
    cases hlookup
  unfold perform
  split
  · exact hempty placed_nil
  · exact hempty h
  · exact h
  · next hscopes =>
    rw [hscopes] at h
    exact (placed_cons_iff.1 h).1
  · exact h
  · next name ty line scope outer hscopes =>
    split
    · exact h
    · rw [hscopes] at h
      obtain ⟨houter, hscope⟩ := placed_cons_iff.1 h
      refine placed_cons_iff.2 ⟨houter, fun name' entry hlookup => ?_⟩
      by_cases hname : name' = name
      · subst hname
        rw [Finmap.lookup_insert] at hlookup
        cases hlookup
        exact ⟨rfl, rfl, rfl⟩
      · rw [Finmap.lookup_insert_of_ne _ hname] at hlookup
        exact hscope name' entry hlookup
  · exact h
  · exact h

/-- An operation adds to the declarations what it declares. -/
theorem declared_perform (stack : ScopeStack) (operation : Operation) :
    (stack.perform operation).2.declared =
      stack.declared ++ (stack.perform operation).1.declared?.toList := by
  unfold perform
  split
  case h_6 =>
    split
    · exact (List.append_nil _).symm
    · rfl
  all_goals exact (List.append_nil _).symm

theorem declared_play (stack : ScopeStack) (operations : List Operation) :
    (play perform stack operations).2.declared =
      stack.declared ++ (play perform stack operations).1.filterMap Answer.declared? := by
  induction operations generalizing stack with
  | nil => exact (List.append_nil _).symm
  | cons operation operations ih =>
    simp only [play]
    rw [ih, declared_perform, List.append_assoc]
    congr 1
    cases hanswer : (stack.perform operation).1.declared? <;> simp [hanswer]

end ScopeStack

/-! ### The stack that a table stands for -/

/-- What a scope binds. -/
def Scope.bindings (scope : Scope) : Bindings :=
  (scope.entries.map fun entry => (⟨entry.name, entry⟩ : Σ _ : String, Entry)).toFinmap

theorem Scope.lookup_bindings (scope : Scope) (name : String) :
    scope.bindings.lookup name = scope.find? name := by
  obtain ⟨_, entries⟩ := scope
  have hlookup (l : List (Σ _ : String, Entry)) : l.toFinmap.lookup name = l.dlookup name :=
    (Finmap.lookup_toFinmap name l.toAList).trans (AList.lookup_to_alist l)
  rw [bindings, hlookup, find?]
  induction entries with
  | nil => rfl
  | cons entry entries ih =>
    rw [List.map_cons, List.find?_cons]
    by_cases hname : entry.name = name
    · subst hname
      rw [List.dlookup_cons_eq, beq_self_eq_true]
    · rw [List.dlookup_cons_ne _ _ (Ne.symm hname), ih, beq_eq_false_iff_ne.2 hname]

theorem Scope.mem_bindings {scope : Scope} {name : String} :
    name ∈ scope.bindings ↔ (scope.find? name).isSome = true := by
  rw [← Finmap.lookup_isSome, lookup_bindings]

/-- A new entry binds its name, and nothing else is bound anew. -/
theorem Scope.bindings_append {scope : Scope} {entry : Entry}
    (h : scope.find? entry.name = none) :
    Scope.bindings { scope with entries := scope.entries ++ [entry] } =
      scope.bindings.insert entry.name entry := by
  refine Finmap.ext_lookup fun name => ?_
  rw [lookup_bindings, find?, List.find?_append]
  by_cases hname : name = entry.name
  · subst hname
    rw [find?] at h
    rw [Finmap.lookup_insert, h, Option.none_or]
    simp
  · rw [Finmap.lookup_insert_of_ne _ hname, lookup_bindings, find?]
    simp [Ne.symm hname]

namespace SymbolTable

/-- The stack that a table stands for. -/
def stack (table : SymbolTable) : ScopeStack where
  scopes := table.scopes.map fun scope => ⟨scope.name, scope.bindings⟩
  declared := table.entries.toList
  counter := table.counter

theorem find?_stack (table : SymbolTable) (name : String) :
    table.stack.find? name = table.find? name := by
  rw [ScopeStack.find?, stack, List.findSome?_map, find?]
  congr 1
  funext scope
  exact scope.lookup_bindings name

/-- A table answers an operation as its stack does, and stands for the stack after it. -/
theorem perform_stack (table : SymbolTable) (operation : Operation) :
    table.stack.perform operation =
      ((table.perform operation).1, (table.perform operation).2.stack) := by
  obtain ⟨scopes, entries, counter⟩ := table
  cases operation with
  | enter hint => cases scopes <;> rfl
  | leave => cases scopes <;> rfl
  | declare name ty line =>
    cases scopes with
    | nil => rfl
    | cons scope outer =>
      simp only [perform, declare, ScopeStack.perform, stack, List.map_cons, Scope.mem_bindings]
      split
      · rfl
      · next hname =>
        have hnone : scope.find? name = none := Option.not_isSome_iff_eq_none.1 hname
        simp only [Response.answered, List.map_cons, List.length_map, Array.toList_push]
        rw [Scope.bindings_append hnone]
  | lookup name =>
    cases scopes with
    | nil => rfl
    | cons scope outer => exact congrArg (fun entry => (Answer.found entry, _)) (find?_stack _ name)

/-! ### Tables -/

theorem after_stack (operations : List Operation) :
    play ScopeStack.perform .empty operations = (answers operations, (after operations).stack) :=
  play_map perform_stack empty operations

/-- A refused operation leaves a table as it was. -/
theorem perform_of_refused {table : SymbolTable} {operation : Operation} {refusal : Refusal}
    (h : (table.perform operation).1 = .refused refusal) :
    (table.perform operation).2 = table := by
  cases operation with
  | enter hint =>
    have hresult := Response.error_of_answered (by simp) h
    rw [enter] at hresult
    split at hresult <;> cases hresult
  | leave =>
    rw [perform, Response.answered_table]
    exact table_leave_of_error (Response.error_of_answered (by simp) h)
  | declare name ty line =>
    rw [perform, Response.answered_table]
    exact table_declare_of_error (Response.error_of_answered (by simp) h)
  | lookup name => rw [perform, Response.answered_table, table_lookup]

theorem lookup_eq_innermost_iff {table : SymbolTable} {name : String} {entry : Entry} :
    (table.lookup name).result = .ok (some entry) ↔ ∃ inner scope outer,
      table.stack.scopes = inner ++ scope :: outer ∧ scope.bindings.lookup name = some entry ∧
        ∀ other ∈ inner, name ∉ other.bindings := by
  rw [lookup_eq_some_iff, ← find?_stack, ScopeStack.find?, List.findSome?_eq_some_iff]
  simp only [Finmap.lookup_eq_none]

theorem lookup_eq_none_iff {table : SymbolTable} {name : String} :
    (table.lookup name).result = .ok none ↔
      table.stack.scopes ≠ [] ∧ ∀ scope ∈ table.stack.scopes, name ∉ scope.bindings := by
  have hresult : (table.lookup name).result = .ok none ↔
      table.scopes ≠ [] ∧ table.find? name = none := by
    rw [lookup]
    split
    · next hscopes => simp [hscopes]
    · next hscopes => simp [hscopes]
  rw [hresult, ← find?_stack, ScopeStack.find?, List.findSome?_eq_none_iff]
  simp only [Finmap.lookup_eq_none, stack, ne_eq, List.map_eq_nil_iff]

theorem declare_eq_redeclared_iff {table : SymbolTable} {name : String} {ty : Ty}
    {line : Option Int} : (table.declare name ty line).result = .error (.redeclared name line) ↔
      ∃ scope outer, table.stack.scopes = scope :: outer ∧ name ∈ scope.bindings := by
  obtain ⟨scopes, entries, counter⟩ := table
  cases scopes with
  | nil => simp [declare, stack]
  | cons scope outer =>
    simp only [declare, stack, List.map_cons, List.cons.injEq]
    split
    · next hname => simpa [Scope.mem_bindings] using hname
    · next hname => simpa [Scope.mem_bindings] using hname

/-- After any operations on a new table, whatever they were answered:
    the answers and the table are those of a stack of finite maps;
    a name is looked up in the innermost scope that binds it, and not found if no scope does;
    a name is refused if the innermost scope binds it, whatever the others do;
    what a scope binds has its level, its name and the name that it is bound to;
    the entries are those of the declarations that were made, in their order;
    and an operation that is refused changes nothing. -/
theorem refines_stack (operations : List Operation) :
    play ScopeStack.perform .empty operations =
        (answers operations, (after operations).stack) ∧
      (∀ name entry, ((after operations).lookup name).result = .ok (some entry) ↔
        ∃ inner scope outer, (after operations).stack.scopes = inner ++ scope :: outer ∧
          scope.bindings.lookup name = some entry ∧ ∀ other ∈ inner, name ∉ other.bindings) ∧
      (∀ name, ((after operations).lookup name).result = .ok none ↔
        (after operations).stack.scopes ≠ [] ∧
          ∀ scope ∈ (after operations).stack.scopes, name ∉ scope.bindings) ∧
      (∀ name ty line,
        ((after operations).declare name ty line).result = .error (.redeclared name line) ↔
          ∃ scope outer, (after operations).stack.scopes = scope :: outer ∧ name ∈ scope.bindings) ∧
      (∀ (i : Nat) (scope : ScopeStack.Frame),
        (after operations).stack.scopes.reverse[i]? = some scope →
        ∀ name entry, scope.bindings.lookup name = some entry →
          entry.level = i ∧ entry.scope = scope.name ∧ entry.name = name) ∧
      (after operations).entries.toList = (answers operations).filterMap Answer.declared? ∧
      ∀ operation refusal, ((after operations).perform operation).1 = .refused refusal →
        ((after operations).perform operation).2 = after operations := by
  have hplay := after_stack operations
  refine ⟨hplay, fun _ _ => lookup_eq_innermost_iff, fun _ => lookup_eq_none_iff,
    fun _ _ _ => declare_eq_redeclared_iff, ?_, ?_, fun _ _ => perform_of_refused⟩
  · have hplaced : ScopeStack.Placed (play ScopeStack.perform .empty operations).2.scopes :=
      play_invariant ScopeStack.placed_perform ScopeStack.placed_nil operations
    rw [hplay] at hplaced
    exact fun i scope hscope name entry hentry => hplaced.of_getElem? hscope hentry
  · have hdeclared := ScopeStack.declared_play .empty operations
    rw [hplay] at hdeclared
    exact hdeclared

/-- An inner scope binds a name that the global scope binds too. -/
def shadowing : List Operation :=
  [.enter none, .declare "x" .int (some 1), .enter (some "while_body"),
    .declare "x" .char (some 2), .lookup "y"]

/-- The inner binding is found, and refuses another one, which changes nothing. -/
theorem refines_stack_shadowing :
    ((after shadowing).lookup "x").result =
        .ok (some ⟨"x", .char, "while_body#1", 1, some 2⟩) ∧
      ((after shadowing).perform (.declare "x" .float (some 3))).2 = after shadowing := by
  obtain ⟨-, hlookup, -, -, -, -, hrefused⟩ := refines_stack shadowing
  refine ⟨(hlookup _ _).2 ⟨[], _, _, rfl, ?_, by simp⟩, ?_⟩
  · rw [Scope.lookup_bindings]
    decide
  · exact hrefused _ (.redeclared "x" (some 3)) rfl

end SymbolTable

end MiniPascal
