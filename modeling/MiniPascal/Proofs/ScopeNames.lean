import Mathlib.Data.List.Nodup
import MiniPascal.Proofs.Parser.Interruption
import MiniPascal.Proofs.Parser.Reached
import MiniPascal.Proofs.Scopes
import MiniPascal.Proofs.ScopeStack

/-!
# The names of scopes

A scope that is opened inside another is called by a hint and a number, and whatever the hint, the
number can be read off the end of the name (`scopeNumber_innerName`). The numbers count these
scopes, and the count never goes back, so over the whole life of a table no name is given twice
(`SymbolTable.map_scopeNumber_innerScopes`).

As a scope binds a name once, no two entries have both the scope and the name in common
(`SymbolTable.Unambiguous`), as long as the global scope is not opened again after it was left.
A check opens it once, so its table has no such entries, however it ends
(`scope_names_distinct`).
-/

namespace MiniPascal

open SymbolTable

/-! ### Names and numbers -/

/-- The number that a name ends with, behind its last `#`. -/
def scopeNumber (name : String) : Nat :=
  Nat.ofDigitChars 10 (name.toList.reverse.takeWhile (· ≠ '#')).reverse 0

namespace SymbolTable

theorem toList_innerName (hint : Option String) (number : Nat) :
    (innerName hint number).toList = (stem hint).toList ++ '#' :: Nat.toDigits 10 number := by
  have hname : innerName hint number = stem hint ++ "#" ++ number.repr := rfl
  simp [hname]

/-- The hint may hold any characters, but the digits of the number are no `#`. -/
theorem scopeNumber_innerName (hint : Option String) (number : Nat) :
    scopeNumber (innerName hint number) = number := by
  have hdigits : ∀ c ∈ (Nat.toDigits 10 number).reverse, decide (c ≠ '#') = true := by
    intro c hc
    have hdigit : c.isDigit = true :=
      Nat.isDigit_of_mem_toDigits (by decide) (by decide) (List.mem_reverse.1 hc)
    rw [decide_eq_true_iff]
    rintro rfl
    exact absurd hdigit (by decide)
  rw [scopeNumber, toList_innerName, List.reverse_append, List.reverse_cons, List.append_assoc,
    List.takeWhile_append_of_pos hdigits]
  simp

theorem number_eq_of_innerName {hint hint' : Option String} {number number' : Nat}
    (h : innerName hint number = innerName hint' number') : number = number' := by
  rw [← scopeNumber_innerName hint number, h, scopeNumber_innerName]

theorem innerName_ne_global (hint : Option String) (number : Nat) :
    innerName hint number ≠ "global" := by
  intro h
  have hmem : '#' ∈ (innerName hint number).toList := by simp [toList_innerName]
  rw [h] at hmem
  exact absurd hmem (by decide)

/-! ### Any operations -/

/-- The name of the scope that an operation opens inside another, if it does. -/
def opensInside? (table : SymbolTable) (operation : Operation) : Option String :=
  match table.scopes, (table.perform operation).1 with
  | _ :: _, .entered name => some name
  | _, _ => none

/-- The names of the scopes that operations open inside another, one after another. -/
def innerScopes (table : SymbolTable) : List Operation → List String
  | [] => []
  | operation :: operations =>
    (table.opensInside? operation).toList ++ innerScopes (table.perform operation).2 operations

/-- An operation counts the scope that it opens inside another, and calls it by the count. -/
theorem opensInside?_cases (table : SymbolTable) (operation : Operation) :
    (table.opensInside? operation = none ∧
      (table.perform operation).2.counter = table.counter) ∨
    ∃ hint, table.opensInside? operation = some (innerName hint (table.counter + 1)) ∧
      (table.perform operation).2.counter = table.counter + 1 := by
  obtain ⟨scopes, entries, counter⟩ := table
  cases scopes with
  | nil => cases operation <;> exact .inl ⟨rfl, rfl⟩
  | cons scope outer =>
    cases operation with
    | enter hint => exact .inr ⟨hint, rfl, rfl⟩
    | leave | lookup => exact .inl ⟨rfl, rfl⟩
    | declare name ty line =>
      left
      by_cases hfind : (scope.find? name).isSome = true <;>
        simp [opensInside?, perform, declare, Response.answered, hfind]

/-- The scopes that are opened inside another are numbered one after another. -/
theorem map_scopeNumber_innerScopes (table : SymbolTable) (operations : List Operation) :
    (table.innerScopes operations).map scopeNumber =
      List.range' (table.counter + 1) (table.innerScopes operations).length := by
  induction operations generalizing table with
  | nil => rfl
  | cons operation operations ih =>
    have hrest := ih (table.perform operation).2
    rcases table.opensInside?_cases operation with ⟨hnone, hcounter⟩ | ⟨hint, hsome, hcounter⟩
    · rw [innerScopes, hnone]
      rwa [hcounter] at hrest
    · rw [innerScopes, hsome]
      rw [hcounter] at hrest
      simp [scopeNumber_innerName, hrest, List.range'_succ]

theorem global_notMem_innerScopes (table : SymbolTable) (operations : List Operation) :
    "global" ∉ table.innerScopes operations := by
  induction operations generalizing table with
  | nil => exact List.not_mem_nil
  | cons operation operations ih =>
    rw [innerScopes, List.mem_append, not_or]
    refine ⟨?_, ih _⟩
    rcases table.opensInside?_cases operation with ⟨hnone, -⟩ | ⟨hint, hsome, -⟩
    · rw [hnone]
      exact List.not_mem_nil
    · rw [hsome, Option.toList_some, List.mem_singleton]
      exact (innerName_ne_global hint _).symm

end SymbolTable

/-! ### Entries -/

/-- The scope of an entry and its name. -/
def Entry.place (entry : Entry) : String × String :=
  (entry.scope, entry.name)

namespace SymbolTable

/-- The entries of a table can be told apart by scope and name, and so they can after further
    declarations: names of later numbers are in use for no scope, the open scopes have different
    names, and what is declared in a scope of the name of an open one is bound by it. -/
structure Unambiguous (table : SymbolTable) : Prop where
  unused : ∀ hint number, table.counter < number →
    innerName hint number ∉ table.scopes.map Scope.name ∧
      innerName hint number ∉ table.entries.toList.map Entry.scope
  scopes : (table.scopes.map Scope.name).Nodup
  bound : ∀ scope ∈ table.scopes, ∀ entry ∈ table.entries.toList, entry.scope = scope.name →
    entry ∈ scope.entries
  places : (table.entries.toList.map Entry.place).Nodup

variable {table : SymbolTable}

theorem unambiguous_global : global.Unambiguous where
  unused hint number _ := by simp [global, innerName_ne_global]
  scopes := by simp [global]
  bound := by simp [global]
  places := by simp [global]

theorem Unambiguous.enter {scope : Scope} {outer : List Scope} (h : table.Unambiguous)
    (hscopes : table.scopes = scope :: outer) (hint : Option String) :
    (table.enter hint).table.Unambiguous := by
  have hentered : (table.enter hint).table = { table with
      scopes := ⟨innerName hint (table.counter + 1), []⟩ :: table.scopes
      counter := table.counter + 1 } := enter_table_of_cons hscopes hint
  obtain ⟨hunopened, hundeclared⟩ := h.unused hint (table.counter + 1) (Nat.lt_succ_self _)
  rw [hentered]
  constructor
  · intro hint' number hnumber
    obtain ⟨hscope, hentry⟩ := h.unused hint' number (Nat.lt_of_succ_lt hnumber)
    refine ⟨?_, hentry⟩
    rw [List.map_cons, List.mem_cons, not_or]
    refine ⟨fun hname => ?_, hscope⟩
    exact absurd (number_eq_of_innerName hname) (Nat.ne_of_gt hnumber)
  · exact List.nodup_cons.2 ⟨hunopened, h.scopes⟩
  · refine List.forall_mem_cons.2 ⟨fun entry hentry hname => ?_, h.bound⟩
    exact absurd (List.mem_map.2 ⟨entry, hentry, hname⟩) hundeclared
  · exact h.places

theorem Unambiguous.leave (h : table.Unambiguous) : table.leave.table.Unambiguous := by
  rw [SymbolTable.leave]
  split
  · exact h
  · next scope outer hscopes =>
    obtain ⟨hunused, hnames, hbound, hplaces⟩ := h
    rw [hscopes] at hunused hnames hbound
    refine ⟨fun hint number hnumber => ?_, (List.nodup_cons.1 hnames).2,
      (List.forall_mem_cons.1 hbound).2, hplaces⟩
    obtain ⟨hscope, hentry⟩ := hunused hint number hnumber
    exact ⟨fun hmem => hscope (List.mem_cons_of_mem _ hmem), hentry⟩

theorem Unambiguous.declare (h : table.Unambiguous) (name : String) (ty : Ty)
    (line : Option Int) : (table.declare name ty line).table.Unambiguous := by
  rw [SymbolTable.declare]
  split
  · exact h
  · next scope outer hscopes =>
    split
    · exact h
    · next hfind =>
      obtain ⟨hunused, hnames, hbound, hplaces⟩ := h
      rw [hscopes] at hunused hnames hbound
      obtain ⟨hinner, houter⟩ := List.forall_mem_cons.1 hbound
      constructor
      · intro hint number hnumber
        obtain ⟨hscope, hentry⟩ := hunused hint number hnumber
        refine ⟨hscope, ?_⟩
        rw [Array.toList_push, List.map_append, List.mem_append, not_or]
        refine ⟨hentry, fun hmem => hscope ?_⟩
        rw [List.map_singleton, List.mem_singleton] at hmem
        exact hmem ▸ List.mem_cons_self
      · exact hnames
      · refine List.forall_mem_cons.2 ⟨fun entry hentry hname => ?_, ?_⟩
        · rw [Array.toList_push] at hentry
          refine (List.mem_append.1 hentry).elim (fun hentry => ?_) (List.mem_append_right _)
          exact List.mem_append_left _ (hinner entry hentry hname)
        · intro other hother entry hentry hname
          rw [Array.toList_push] at hentry
          refine (List.mem_append.1 hentry).elim (fun hentry => ?_) fun hentry => ?_
          · exact houter other hother entry hentry hname
          · obtain rfl := List.mem_singleton.1 hentry
            exact absurd (List.mem_map.2 ⟨other, hother, hname.symm⟩) (List.nodup_cons.1 hnames).1
      · rw [Array.toList_push, List.map_append, List.map_singleton, List.nodup_append_comm,
          List.singleton_append, List.nodup_cons]
        refine ⟨fun hmem => hfind ?_, hplaces⟩
        obtain ⟨entry, hentry, hplace⟩ := List.mem_map.1 hmem
        obtain ⟨hscope, hname⟩ := Prod.mk.inj hplace
        -- An entry of that name in this scope is bound by it.
        exact List.find?_isSome.2 ⟨entry, hinner entry hentry hscope, beq_iff_eq.2 hname⟩

end SymbolTable

/-! ### Checks -/

namespace Parsing

variable {α : Type} {s : Parser} {n : Nat}

/-- With `n` scopes open, the entries of the symbol table can be told apart. -/
def distinct (n : Nat) : Assertion where
  holds s := s.symbols.scopes.length = n ∧ s.symbols.Unambiguous
  stops _ s := (s.symbols.entries.toList.map Entry.place).Nodup

theorem distinct_onSymbols {operation : SymbolTable → Response α}
    (hgranted : Granted n (operation s.symbols))
    (h : (operation s.symbols).table.Unambiguous) :
    (distinct n).Kept ((onSymbols operation).run s) := by
  cases hr : (operation s.symbols).result with
  | ok a =>
    rw [run_onSymbols_ok hr]
    exact ⟨hgranted.ok hr, h⟩
  | error refusal =>
    rw [run_onSymbols_error hr]
    cases refusal <;> exact h.places

/-- Within a scope only declarations add to the table. -/
def distinctWithin (n : Nat) : Invariant where
  toAssertion := distinct (n + 1)
  moves := by
    rintro s token - ⟨hlevel, hs⟩
    exact Assertion.kept_move (fun _ => ⟨hlevel, hs⟩) (fun _ _ _ _ => ⟨hlevel, hs⟩)
      fun _ _ _ _ => hs.places
  looksUp name := by
    refine .bind (fun s hs => distinct_onSymbols (granted_lookup hs.1 name) ?_) fun entry => ?_
    · rw [table_lookup]
      exact hs.2
    · cases entry with
      | none => exact fun s hs => hs.2.places
      | some entry => exact Assertion.keeps_pure _
  failsSyntax _ hs := hs.2.places
  failsSemantic _ hs := hs.2.places
  failsTooDeep hs := hs.2.places

/-- The global scope is opened on an empty table, and every other scope inside one. -/
def distinctInvariant : LeveledInvariant where
  holds
    | 0, s => s.symbols = .empty
    | n + 1, s => (distinct (n + 1)).holds s
  ended s := (s.symbols.entries.toList.map Entry.place).Nodup
  stops := (distinct 0).stops
  moves n := (distinctWithin n).moves
  looksUp n := (distinctWithin n).looksUp
  declares n := Invariant.keeps_decl (I := distinctWithin n) fun name type s hs => by
    rw [run_declare]
    exact (distinct_onSymbols (granted_declare hs.1 name type.ty _)
      (hs.2.declare name type.ty _)).bind fun _ => Assertion.keeps_pure ()
  enters n hint s hs := by
    rw [enterScope, run_bind]
    cases n with
    | zero =>
      have hsymbols : s.symbols = .empty := hs
      have hkept : (distinct 1).Kept ((onSymbols (·.enter hint)).run s) :=
        distinct_onSymbols (hsymbols ▸ granted_enter .empty hint) (hsymbols ▸ unambiguous_global)
      exact hkept.bind fun _ => Assertion.keeps_pure ()
    | succ n =>
      obtain ⟨hlevel, hunambiguous⟩ := hs
      obtain ⟨scope, outer, hscopes⟩ := List.exists_cons_of_length_eq_add_one hlevel
      have hgranted := granted_enter s.symbols hint
      rw [hlevel] at hgranted
      have hkept : (distinct (n + 2)).Kept ((onSymbols (·.enter hint)).run s) :=
        distinct_onSymbols hgranted (hunambiguous.enter hscopes hint)
      exact hkept.bind fun _ => Assertion.keeps_pure ()
  leaves n s hs := distinct_onSymbols (granted_leave hs.1) hs.2.leave
  ends {s} hs := by
    have hkept : (distinct 0).Kept (leaveScope.run s) :=
      distinct_onSymbols (granted_leave hs.1) hs.2.leave
    revert hkept
    cases leaveScope.run s with
    | ok _ s' => exact fun hkept => hkept.2.places
    | error e s' => exact id
  failsSyntax {n _} := (distinctWithin n).failsSyntax
  failsSemantic {n _} := (distinctWithin n).failsSemantic
  failsTooDeep {n _} := (distinctWithin n).failsTooDeep

/-- The entries of the table of a check can be told apart, however it ends. -/
theorem nodup_places_of_check (scans : List Scan) :
    ((finalState (check.run (.ofScans scans))).symbols.entries.toList.map Entry.place).Nodup := by
  have hstart : (distinctInvariant.assertion 0).Kept (move.run (.ofScans scans)) :=
    Assertion.kept_move (fun _ => rfl) (fun _ _ _ _ => rfl) fun _ _ _ _ => List.nodup_nil
  have hkept := distinctInvariant.kept_check hstart
  revert hkept
  cases check.run (.ofScans scans) <;> exact id

end Parsing

open Parsing

/-- The scopes that operations on a new table open inside another have names of their own, none of
    them that of the global scope, whatever the hints, and whatever else is done or refused in
    between. No two entries of the table of a text have the same scope and name, however its check
    ends. -/
theorem scope_names_distinct (operations : List Operation) (text : String) :
    ((SymbolTable.empty.innerScopes operations).Nodup ∧
      "global" ∉ SymbolTable.empty.innerScopes operations) ∧
    ((finalState (check.run (.ofText text))).symbols.entries.toList.map Entry.place).Nodup ∧
    ∀ table, (compile text).outcome = .ok (.accepted table) →
      (table.entries.toList.map Entry.place).Nodup := by
  have hplaces := nodup_places_of_check (Lexer.ofText text).scans
  refine ⟨⟨?_, global_notMem_innerScopes _ _⟩, hplaces, fun table htable => ?_⟩
  · refine List.Nodup.of_map scopeNumber ?_
    rw [map_scopeNumber_innerScopes]
    exact List.nodup_range' 1
  · obtain ⟨s, hrun, rfl⟩ := run_check_of_accepted htable
    rwa [hrun] at hplaces

/-- Scopes are opened and left, refusals come in between, and the hints look like names. -/
def reopening : List Operation :=
  [.leave, .enter none, .enter (some "a#1"), .declare "x" .int none, .declare "x" .char none,
    .leave, .enter (some ""), .leave, .leave, .leave, .lookup "x", .enter (some "a"),
    .enter (some "a#1")]

/-- A program with two loops that declare a name of the program again. -/
def redeclaringText : String :=
  "program int: x; begin repeat int: x; x = 1 until x > 0; repeat int: x; x = 1 until x > 0 end"

/-- The table of this program. -/
def redeclaring : SymbolTable :=
  ⟨[], #[⟨"x", .int, "global", 0, some 1⟩, ⟨"x", .int, "repeat_body#1", 1, some 1⟩,
    ⟨"x", .int, "repeat_body#2", 1, some 1⟩], 2⟩

/-- The hint of the first inner scope comes again, also within the global scope opened anew. -/
theorem scope_names_distinct_reopening :
    SymbolTable.empty.innerScopes reopening = ["a#1#1", "scope#2", "a#1#3"] ∧
      ["a#1#1", "scope#2", "a#1#3"].Nodup ∧
      (compile redeclaringText).outcome = .ok (.accepted redeclaring) ∧
      (redeclaring.entries.toList.map Entry.place).Nodup := by
  have hscopes : SymbolTable.empty.innerScopes reopening = ["a#1#1", "scope#2", "a#1#3"] := by
    decide +kernel
  have htable : (compile redeclaringText).outcome = .ok (.accepted redeclaring) := by
    decide +kernel
  obtain ⟨⟨hnodup, -⟩, -, hplaces⟩ := scope_names_distinct reopening redeclaringText
  exact ⟨hscopes, hscopes ▸ hnodup, htable, hplaces redeclaring htable⟩

end MiniPascal
