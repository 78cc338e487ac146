import MiniPascal.Proofs.Acceptance
import MiniPascal.Proofs.Parser.Answering
import MiniPascal.Proofs.Parser.Reached
import MiniPascal.Proofs.Trace

/-!
# Types that are declared, and types that are not

A name can only be declared with one of three types, so all entries of a symbol table have one
of these at every state of a check (`Parser.Reached.declared`). Where a table is so, no
expression has the type `error`: it is what `promote` answers for operands that do not fit, and
the check is interrupted there (`Parsing.answers_expression` and the like). Nor is anything
ever assigned that is true or false, as no name has the type `bool` (`declared_types`).
-/

namespace MiniPascal

/-- The types that a declaration can give. -/
def Ty.declarable : List Ty :=
  [int, float, char]

theorem TypeName.ty_mem_declarable (type : TypeName) : type.ty ∈ Ty.declarable := by
  cases type <;> decide

theorem Ty.ne_error_of_declarable {ty : Ty} (h : ty ∈ declarable) : ty ≠ .error := by
  rintro rfl
  exact absurd h (by decide)

/-! ### Tables -/

/-- All entries of a table have types that a declaration can give: those that are bound, and all
    that were ever declared. -/
structure SymbolTable.Declared (table : SymbolTable) : Prop where
  bound : ∀ scope ∈ table.scopes, ∀ entry ∈ scope.entries, entry.ty ∈ Ty.declarable
  entries : ∀ entry ∈ table.entries, entry.ty ∈ Ty.declarable

namespace SymbolTable

variable {table : SymbolTable}

theorem declared_empty : empty.Declared where
  bound := by simp [empty]
  entries := by simp [empty]

theorem Declared.enter (h : table.Declared) (hint : Option String) :
    (table.enter hint).table.Declared := by
  rw [SymbolTable.enter]
  split
  · exact ⟨by simp, h.entries⟩
  · refine ⟨List.forall_mem_cons.2 ⟨by simp, ?_⟩, h.entries⟩
    exact h.bound

theorem Declared.leave (h : table.Declared) : table.leave.table.Declared := by
  rw [SymbolTable.leave]
  split
  · exact h
  · next hscopes =>
    have hbound := h.bound
    rw [hscopes, List.forall_mem_cons] at hbound
    exact ⟨hbound.2, h.entries⟩

theorem Declared.declare (h : table.Declared) (name : String) {ty : Ty}
    (hty : ty ∈ Ty.declarable) (line : Option Int) :
    (table.declare name ty line).table.Declared := by
  rw [SymbolTable.declare]
  split
  · exact h
  · next scope outer hscopes =>
    split
    · exact h
    · have hbound := h.bound
      rw [hscopes, List.forall_mem_cons] at hbound
      refine ⟨List.forall_mem_cons.2 ⟨fun entry hentry => ?_, hbound.2⟩, fun entry hentry => ?_⟩
      · rcases List.mem_append.1 hentry with hentry | hentry
        · exact hbound.1 entry hentry
        · obtain rfl := List.mem_singleton.1 hentry
          exact hty
      · rcases Array.mem_push.1 hentry with hentry | rfl
        · exact h.entries entry hentry
        · exact hty

/-- A name that is found has a type that a declaration can give. -/
theorem Declared.find? (h : table.Declared) {name : String} {entry : Entry}
    (hfind : table.find? name = some entry) : entry.ty ∈ Ty.declarable := by
  obtain ⟨scope, hscope, hentry⟩ := List.exists_of_findSome?_eq_some hfind
  exact h.bound scope hscope entry (List.mem_of_find?_eq_some hentry)

end SymbolTable

open Parsing

/-- Every operation of a parser leaves a table of declared types. -/
theorem Parser.Step.declared {s s' : Parser} (h : Step s s') (hs : s.symbols.Declared) :
    s'.symbols.Declared := by
  obtain hsymbols | ⟨hint, hsymbols⟩ | hsymbols | ⟨name, type, line, hsymbols⟩ := h.symbols
  · rwa [hsymbols]
  · rw [hsymbols]
    exact hs.enter hint
  · rw [hsymbols]
    exact hs.leave
  · rw [hsymbols]
    exact hs.declare name type.ty_mem_declarable line

/-- At every state of a check all entries have declared types. -/
theorem Parser.Reached.declared {text : String} {s : Parser} (h : s.Reached text) :
    s.symbols.Declared :=
  h.invariant SymbolTable.declared_empty fun _ _ hstep => hstep.declared

/-! ### Expressions -/

namespace Parsing

variable {t : SymbolTable}

theorem answers_lookup (ht : t.Declared) (name : String) :
    Answers t (· ≠ .error) (lookup name) := by
  intro s ty s' hs hrun
  refine ⟨?_, (symbols_of_spares (fun t => (tableInvariant t).looksUp name) hrun).trans hs⟩
  obtain ⟨⟨entry, hentry, rfl⟩, -⟩ := run_lookup_eq_ok_iff.1 hrun
  exact Ty.ne_error_of_declarable (ht.find? (hs ▸ hentry))

theorem answers_binary (op : Kind) (left right : Ty) :
    Answers t (· ≠ .error) (binary op left right) := by
  rw [binary]
  split
  · exact answers_pure (by decide)
  · simp only [arithmetic]
    split
    · exact answers_failSemantic _
    · next herror => exact answers_pure herror

theorem answers_constant : Answers t (· ≠ .error) constant := by
  refine answers_lookKind?_bind fun kind => ?_
  split
  · next ty hty =>
    refine answers_move.bind fun _ _ => answers_pure ?_
    obtain ⟨kind, -, hty⟩ := Option.bind_eq_some_iff.1 hty
    obtain ⟨c, -, rfl⟩ := Kind.constantType?_eq_some_iff.1 hty
    cases c <;> decide
  · exact answers_failSyntax _

section Expressions

variable {inner : Parsing Ty} (ht : t.Declared) (hinner : Answers t (· ≠ .error) inner)
include ht hinner

theorem answers_factor : Answers t (· ≠ .error) (factor inner) := by
  refine answers_lookKind?_bind fun kind => ?_
  split
  · exact (answers_expect _).bind fun token _ => answers_lookup ht token.text
  · refine (answers_expect _).bind fun _ _ => hinner.bind fun ty hty => ?_
    exact (answers_expect _).bind fun _ _ => answers_pure hty
  · split
    · exact answers_constant
    · exact answers_failSyntax _
  · exact answers_failSyntax _

theorem answers_factorA : Answers t (· ≠ .error) (factorA inner) := by
  have hfactor := answers_factor ht hinner
  refine answers_lookKind?_bind fun kind => ?_
  split
  · refine answers_move.bind fun _ _ => hfactor.bind fun ty _ => ?_
    refine Answers.bind (P := fun _ => True) ?_ fun _ _ => answers_pure (by decide)
    exact answers_of_spares fun _ => Invariant.keeps_requireBool ty _
  · refine answers_move.bind fun _ _ => hfactor.bind fun ty hty => ?_
    split
    · exact answers_pure hty
    · exact answers_failSemantic _
  · exact hfactor

omit ht hinner in
theorem answers_chain {isOp : Kind → Bool} {operand : Parsing Ty}
    (h : Answers t (· ≠ .error) operand) : Answers t (· ≠ .error) (chain isOp operand) := by
  refine h.bind fun first hfirst => answers_whileLooking (fun op left _ => ?_) hfirst
  exact answers_move.bind fun _ _ => h.bind fun right _ => answers_binary op left right

theorem answers_term : Answers t (· ≠ .error) (term inner) :=
  answers_chain (answers_factorA ht hinner)

theorem answers_simpleExpr : Answers t (· ≠ .error) (simpleExpr inner) :=
  answers_chain (answers_term ht hinner)

theorem answers_expression : Answers t (· ≠ .error) (expression inner) := by
  have hsimple := answers_simpleExpr ht hinner
  refine hsimple.bind fun left hleft => answers_looking_bind fun b => ?_
  split
  · refine answers_move.bind fun _ _ => hsimple.bind fun right _ => ?_
    split
    · exact answers_pure (by decide)
    · exact answers_failSemantic _
  · exact answers_pure hleft

end Expressions

theorem answers_parenthesized (ht : t.Declared) (budget : Nat) :
    Answers t (· ≠ .error) (parenthesized budget) := by
  induction budget using parenthesized.induct with
  | case1 budget ih => exact answers_expression ht ih
  | case2 budget h =>
    rw [parenthesized]
    · rintro s _ _ - ⟨⟩
    · exact h

/-- The procedures that answer the type of what they read, given how the expression within
    parentheses is read. -/
def typings (inner : Parsing Ty) : List (Parsing Ty) :=
  [factor inner, factorA inner, term inner, simpleExpr inner, expression inner, condition inner]

/-- The procedures that read declarations, statements and programs, given how nested parts are
    read. -/
def phrases (nested : Nested) : List (Parsing Unit) :=
  [optionalDecls, assignStmt nested.inner, ifStmt nested, whileStmt nested, repeatStmt nested,
    readStmt, writeStmt nested.inner, stmt nested, stmtList nested, nested.body .ifThen,
    nested.body .ifElse, nested.body .whileBody, nested.body .repeatBody, program nested]

theorem answers_typings (ht : t.Declared) (budget : Nat) :
    ∀ m ∈ typings (parenthesized budget), Answers t (· ≠ .error) m := by
  have hinner := answers_parenthesized ht budget
  simp only [typings, List.forall_mem_cons]
  exact ⟨answers_factor ht hinner, answers_factorA ht hinner, answers_term ht hinner,
    answers_simpleExpr ht hinner, answers_expression ht hinner, answers_expression ht hinner,
    by simp⟩

theorem reached_typings (text : String) (budget : Nat) :
    ∀ m ∈ typings (parenthesized budget), (reached text).Keeps m := by
  have hinner : (reached text).Keeps (parenthesized budget) :=
    Invariant.keeps_parenthesized budget
  simp only [typings, List.forall_mem_cons]
  exact ⟨Invariant.keeps_factor hinner, Invariant.keeps_factorA hinner,
    Invariant.keeps_chain (Invariant.keeps_factorA hinner), Invariant.keeps_simpleExpr hinner,
    Invariant.keeps_expression hinner, Invariant.keeps_expression hinner, by simp⟩

theorem reached_phrases (text : String) (budget : Nat) :
    ∀ m ∈ phrases (nested budget), (reached text).Keeps m := by
  have hinner : (reached text).Keeps (nested budget).inner :=
    Invariant.keeps_parenthesized budget
  have hbody (kind : BodyKind) : (reached text).Keeps ((nested budget).body kind) :=
    LeveledInvariant.keeps_body (I := (reached text).toLeveled) (n := 0) budget kind
  have hprogram : (reached text).Keeps (program (nested budget)) :=
    LeveledInvariant.keeps_program (I := (reached text).toLeveled) (n := 0) budget
  simp only [phrases, List.forall_mem_cons]
  exact ⟨Invariant.keeps_optionalDecls (reached text).declares, Invariant.keeps_assignStmt hinner,
    Invariant.keeps_ifStmt hinner hbody, Invariant.keeps_whileStmt hinner hbody,
    Invariant.keeps_repeatStmt hinner hbody, Invariant.keeps_readStmt,
    Invariant.keeps_writeStmt hinner, Invariant.keeps_stmt hinner hbody,
    Invariant.keeps_stmtList hinner hbody, hbody _, hbody _, hbody _, hbody _, hprogram, by simp⟩

end Parsing

/-! ### Assignments -/

/-- All names of an environment have types that a declaration can give. -/
def Env.Declared (Γ : Env) : Prop :=
  ∀ block ∈ Γ, ∀ binding ∈ block, binding.2 ∈ Ty.declarable

theorem declared_declBindings {decls : List Decl} {Γ : Env} (h : Env.Declared Γ) :
    Env.Declared (declBindings decls :: Γ) := by
  refine List.forall_mem_cons.2 ⟨fun binding hbinding => ?_, h⟩
  obtain ⟨d, -, hbinding⟩ := List.mem_flatMap.1 hbinding
  obtain ⟨name, -, rfl⟩ := List.mem_map.1 hbinding
  exact d.type.ty_mem_declarable

theorem Env.Declared.find? {Γ : Env} (h : Declared Γ) {name : String} {τ : Ty}
    (hfind : Γ.find? name = some τ) : τ ∈ Ty.declarable := by
  obtain ⟨block, hblock, hlookup⟩ := List.exists_of_findSome?_eq_some hfind
  obtain ⟨before, after, rfl, -⟩ := List.lookup_eq_some_iff.1 hlookup
  exact h _ hblock (name, τ) (by simp)

/-- In the environment `Γ`, a statement contains an assignment to the name `target`, which stands
    in the environment `Δ`. -/
inductive Stmt.Assigns (Δ : Env) (target : String) (value : Expr .simpleExpr) :
    Env → {form : StmtForm} → Stmt form → Prop
  | assign : Assigns Δ target value Δ (.assign target value)
  | ifThen {Γ : Env} {c : Expr .expression} {body : Stmt .body} :
    Assigns Δ target value Γ body → Assigns Δ target value Γ (.ifThen c body)
  | ifElseThen {Γ : Env} {c : Expr .expression} {body other : Stmt .body} :
    Assigns Δ target value Γ body → Assigns Δ target value Γ (.ifElse c body other)
  | ifElseElse {Γ : Env} {c : Expr .expression} {body other : Stmt .body} :
    Assigns Δ target value Γ other → Assigns Δ target value Γ (.ifElse c body other)
  | whileDo {Γ : Env} {c : Expr .expression} {body : Stmt .body} :
    Assigns Δ target value Γ body → Assigns Δ target value Γ (.whileDo c body)
  | repeatUntil {Γ : Env} {body : Stmt .body} {c : Expr .expression} :
    Assigns Δ target value Γ body → Assigns Δ target value Γ (.repeatUntil body c)
  | last {Γ : Env} {s : Stmt .stmt} :
    Assigns Δ target value Γ s → Assigns Δ target value Γ (.last s)
  | head {Γ : Env} {s : Stmt .stmt} {rest : Stmt .stmtList} :
    Assigns Δ target value Γ s → Assigns Δ target value Γ (.cons s rest)
  | tail {Γ : Env} {s : Stmt .stmt} {rest : Stmt .stmtList} :
    Assigns Δ target value Γ rest → Assigns Δ target value Γ (.cons s rest)
  | block {Γ : Env} {decls : List Decl} {stmts : Stmt .stmtList} :
    Assigns Δ target value (declBindings decls :: Γ) stmts →
    Assigns Δ target value Γ (.block decls stmts)

/-- What is assigned by a statement that is well typed has a type that a declaration can give. -/
theorem Stmt.Assigns.hasType {Δ Γ : Env} {target : String} {value : Expr .simpleExpr}
    {form : StmtForm} {s : Stmt form} (h : s.Assigns Δ target value Γ) (hwell : s.WellTyped Γ)
    (hΓ : Env.Declared Γ) : ∃ τ ∈ Ty.declarable, value.HasType Δ τ := by
  induction h with
  | assign =>
    cases hwell with
    | assign hfind hvalue => exact ⟨_, hΓ.find? hfind, hvalue⟩
  | ifThen _ ih =>
    cases hwell with
    | ifThen _ hbody => exact ih hbody hΓ
  | ifElseThen _ ih =>
    cases hwell with
    | ifElse _ hbody _ => exact ih hbody hΓ
  | ifElseElse _ ih =>
    cases hwell with
    | ifElse _ _ hother => exact ih hother hΓ
  | whileDo _ ih =>
    cases hwell with
    | whileDo _ hbody => exact ih hbody hΓ
  | repeatUntil _ ih =>
    cases hwell with
    | repeatUntil hbody _ => exact ih hbody hΓ
  | last _ ih =>
    cases hwell with
    | last hs => exact ih hs hΓ
  | head _ ih =>
    cases hwell with
    | cons hs _ => exact ih hs hΓ
  | tail _ ih =>
    cases hwell with
    | cons _ hrest => exact ih hrest hΓ
  | block _ ih =>
    cases hwell with
    | block _ hstmts => exact ih hstmts (declared_declBindings hΓ)

/-! ### Checks -/

theorem not_tooDeep_of_accepts {c : Compilation} (h : c.Accepts) : ¬ c.TooDeep := by
  obtain ⟨table, htable⟩ := h
  rw [Compilation.TooDeep, Compilation.fault?, htable]
  simp [Verdict.fault?]

/-- A program that is accepted obeys the rules. -/
theorem wellTyped_of_accepts {text : String} (h : (compile text).Accepts) {p : Program}
    (hp : p.Derives ((tokenize text).rows.map Prod.snd)) : p.WellTyped := by
  have hscan := (failure_tokenize_of_accepts h).1
  rw [tokenize, Lexer.tokenization, Tokenization.rows_ofScans] at hp
  rw [tokenize, Lexer.tokenization, Tokenization.failure_ofScans] at hscan
  exact (accepts_compileScans_of_derives hp hscan (not_tooDeep_of_accepts h)).1 h

/-- In the check of a text,
    every state that is reached has only entries of the types `int`, `float` and `char`;
    whatever is read from it leads to states that are reached again;
    an expression that is read from it does not have the type `error`;
    and all that is accepted in the end is a program that assigns only values of these types. -/
theorem declared_types (text : String) :
    (∀ s : Parser, s.Reached text → s.symbols.Declared ∧ ∀ budget,
      (∀ m ∈ typings (parenthesized budget), (finalState (m.run s)).Reached text ∧
        ∀ ty s', m.run s = .ok ty s' → ty ≠ .error) ∧
      ∀ m ∈ phrases (nested budget), (finalState (m.run s)).Reached text) ∧
    (finalState (check.run (.ofText text))).Reached text ∧
    ((compile text).Accepts →
      (∃ p : Program, p.Derives ((tokenize text).rows.map Prod.snd)) ∧
        ∀ p : Program, p.Derives ((tokenize text).rows.map Prod.snd) → ∀ Δ target value,
          p.stmts.Assigns Δ target value [declBindings p.decls] →
            (∃ τ ∈ Ty.declarable, value.HasType Δ τ) ∧ ¬ value.HasType Δ .bool) := by
  refine ⟨fun s hs => ⟨hs.declared, fun budget => ⟨fun m hm => ⟨?_, fun ty s' hrun => ?_⟩,
    fun m hm => ?_⟩⟩, reached_check text, fun haccepts => ⟨?_, ?_⟩⟩
  · exact reached_run (reached_typings text budget m hm) hs
  · exact (answers_typings hs.declared budget m hm s ty s' rfl hrun).1
  · exact reached_run (reached_phrases text budget m hm) hs
  · have hscan := (failure_tokenize_of_accepts haccepts).1
    obtain ⟨p, hp, -⟩ := (accepts_iff hscan (not_tooDeep_of_accepts haccepts)).1 haccepts
    exact ⟨p, hp⟩
  · intro p hp Δ target value hassigns
    obtain ⟨τ, hτ, hvalue⟩ := hassigns.hasType (wellTyped_of_accepts haccepts hp).stmts
      (declared_declBindings (List.forall_mem_nil _))
    refine ⟨⟨τ, hτ, hvalue⟩, fun hbool => ?_⟩
    rw [← hbool.unique hvalue] at hτ
    exact absurd hτ (by decide)

/-- What is accepted with an assignment in it assigns no value that is true or false. -/
theorem declared_types_assignment :
    (compile "program int: a; begin a = a end").Accepts ∧
      ∃ p : Program, p.Derives ((tokenize "program int: a; begin a = a end").rows.map Prod.snd) ∧
        ∀ Δ target value, p.stmts.Assigns Δ target value [declBindings p.decls] →
          ¬ value.HasType Δ .bool := by
  have haccepts : (compile "program int: a; begin a = a end").Accepts := by decide +kernel
  obtain ⟨-, -, hassigned⟩ := declared_types "program int: a; begin a = a end"
  obtain ⟨⟨p, hp⟩, hvalues⟩ := hassigned haccepts
  exact ⟨haccepts, p, hp, fun Δ target value h => (hvalues p hp Δ target value h).2⟩

end MiniPascal
