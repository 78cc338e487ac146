import MiniPascal.Token.Basic
import MiniPascal.Ty
import Mathlib.Computability.Language
import Mathlib.Order.CompletePartialOrder

/-!
# The grammar of programs

The language of programs, given by its derivation trees:

    program     ::= PROGRAM [decl-list] BEGIN stmt-list END
    decl-list   ::= decl {decl}
    decl        ::= type ':' ident-list ';'
    ident-list  ::= ID {',' ID}
    type        ::= INT | FLOAT | CHAR
    stmt-list   ::= stmt {';' stmt}
    stmt        ::= assign | if-stmt | while-stmt | repeat-stmt | read-stmt | write-stmt
    assign      ::= ID '=' simple-expr
    if-stmt     ::= IF condition THEN body [ELSE body] END
    while-stmt  ::= WHILE condition DO body END
    repeat-stmt ::= REPEAT body UNTIL condition
    read-stmt   ::= IN '(' ID ')'
    write-stmt  ::= OUT '(' writable ')'
    writable    ::= LITERAL | simple-expr
    body        ::= [decl-list] stmt-list
    condition   ::= expression
    expression  ::= simple-expr [relop simple-expr]
    simple-expr ::= term {addop term}
    term        ::= factor-a {mulop factor-a}
    factor-a    ::= ['!' | '-'] factor
    factor      ::= ID | constant | '(' expression ')'
    constant    ::= NUM | REAL | CHAR_CONST

A tree is a value of a type with a constructor for each alternative of a production, and
the word it derives is its `yield`. The words are over `Terminal`s: the kinds of tokens,
with the lexeme of a name. The trees know nothing of how programs are read.

* `Derivable`: a sequence of tokens is the word of some program;
* `Viable`: it begins the word of some program.
-/

namespace MiniPascal

/-! ### Terminals -/

/-- A terminal of the grammar: a name, or a token that is known by its kind alone. -/
inductive Terminal
  | name (lexeme : String)
  | of (kind : Kind)
  deriving DecidableEq

/-- The kind of a terminal. -/
def Terminal.kind : Terminal → Kind
  | name _ => .ident
  | of kind => kind

/-- The terminal that a token is. -/
def Token.terminal (token : Token) : Terminal :=
  if token.kind = .ident then .name token.text else .of token.kind

theorem Token.terminal_of_ne {token : Token} {kind : Kind} (h : token.kind = kind)
    (hne : kind ≠ .ident) : token.terminal = .of kind := by
  rw [terminal, if_neg (h ▸ hne), h]

theorem Token.terminal_of_eq {token : Token} (h : token.kind = .ident) :
    token.terminal = .name token.text :=
  if_pos h

@[simp]
theorem Token.kind_terminal (token : Token) : token.terminal.kind = token.kind := by
  by_cases h : token.kind = .ident
  · rw [terminal_of_eq h, h, Terminal.kind]
  · rw [terminal_of_ne rfl h, Terminal.kind]

/-- A token that stands for a name has the kind and the text of it. -/
theorem Token.eq_of_terminal_name {token : Token} {lexeme : String}
    (h : token.terminal = .name lexeme) : token.kind = .ident ∧ token.text = lexeme := by
  have hkind : token.kind = .ident := by rw [← token.kind_terminal, h, Terminal.kind]
  rw [terminal_of_eq hkind] at h
  exact ⟨hkind, Terminal.name.inj h⟩

/-- A token that stands for a kind is of that kind. -/
theorem Token.kind_of_terminal_of {token : Token} {kind : Kind}
    (h : token.terminal = .of kind) : token.kind = kind := by
  rw [← token.kind_terminal, h, Terminal.kind]

/-- A token for a terminal: a name with its lexeme, any other spelled by its kind. -/
def Terminal.token : Terminal → Token
  | name lexeme => .ident lexeme
  | of kind => .spelled kind

/-! ### Operators, constants and types -/

/-- The relational operators. -/
inductive RelOp
  | equal
  | greater
  | greaterEqual
  | less
  | lessEqual
  | notEqual
  deriving DecidableEq, Repr

/-- The operators between terms. -/
inductive AddOp
  | plus
  | minus
  | or
  deriving DecidableEq, Repr

/-- The operators between factors. -/
inductive MulOp
  | times
  | divide
  | and
  deriving DecidableEq, Repr

/-- The classes of constants. -/
inductive Constant
  | num
  | real
  | charConst
  deriving DecidableEq, Repr

/-- The types that a declaration may name. -/
inductive TypeName
  | int
  | float
  | char
  deriving DecidableEq, Repr

/-- The kind of a relational operator. -/
def RelOp.kind : RelOp → Kind
  | equal => .equal
  | greater => .greater
  | greaterEqual => .greaterEqual
  | less => .less
  | lessEqual => .lessEqual
  | notEqual => .notEqual

/-- The kind of an operator between terms. -/
def AddOp.kind : AddOp → Kind
  | plus => .plus
  | minus => .minus
  | or => .or

/-- The kind of an operator between factors. -/
def MulOp.kind : MulOp → Kind
  | times => .times
  | divide => .divide
  | and => .and

/-- The kind of a class of constants. -/
def Constant.kind : Constant → Kind
  | num => .num
  | real => .real
  | charConst => .charConst

/-- The type of a class of constants. -/
def Constant.ty : Constant → Ty
  | num => .int
  | real => .float
  | charConst => .char

/-- The kind of a type's name. -/
def TypeName.kind : TypeName → Kind
  | int => .kwInt
  | float => .kwFloat
  | char => .kwChar

/-- The type that a name stands for. -/
def TypeName.ty : TypeName → Ty
  | int => .int
  | float => .float
  | char => .char

/-! ### Derivation trees -/

/-- The nonterminals of expressions. -/
inductive ExprForm
  | factor
  | factorA
  | term
  | simpleExpr
  | expression
  deriving DecidableEq, Repr

/-- The derivation trees of expressions. A repetition is grouped from the left, as its
    operators are. -/
inductive Expr : ExprForm → Type
  | name (lexeme : String) : Expr .factor
  | constant (c : Constant) : Expr .factor
  | parens (e : Expr .expression) : Expr .factor
  | plain (f : Expr .factor) : Expr .factorA
  | not (f : Expr .factor) : Expr .factorA
  | minus (f : Expr .factor) : Expr .factorA
  | factorA (f : Expr .factorA) : Expr .term
  | mul (left : Expr .term) (op : MulOp) (right : Expr .factorA) : Expr .term
  | term (t : Expr .term) : Expr .simpleExpr
  | add (left : Expr .simpleExpr) (op : AddOp) (right : Expr .term) : Expr .simpleExpr
  | simple (e : Expr .simpleExpr) : Expr .expression
  | relation (left : Expr .simpleExpr) (op : RelOp) (right : Expr .simpleExpr) : Expr .expression

/-- The derivation tree of a declaration. -/
structure Decl where
  type : TypeName
  first : String
  others : List String

/-- The nonterminals of statements. -/
inductive StmtForm
  | stmt
  | stmtList
  | body
  deriving DecidableEq, Repr

/-- The derivation trees of statements, lists of statements and bodies. -/
inductive Stmt : StmtForm → Type
  | assign (target : String) (value : Expr .simpleExpr) : Stmt .stmt
  | ifThen (condition : Expr .expression) (body : Stmt .body) : Stmt .stmt
  | ifElse (condition : Expr .expression) (body other : Stmt .body) : Stmt .stmt
  | whileDo (condition : Expr .expression) (body : Stmt .body) : Stmt .stmt
  | repeatUntil (body : Stmt .body) (condition : Expr .expression) : Stmt .stmt
  | read (name : String) : Stmt .stmt
  | writeLiteral : Stmt .stmt
  | write (value : Expr .simpleExpr) : Stmt .stmt
  | last (s : Stmt .stmt) : Stmt .stmtList
  | cons (s : Stmt .stmt) (rest : Stmt .stmtList) : Stmt .stmtList
  | block (decls : List Decl) (stmts : Stmt .stmtList) : Stmt .body

/-- The derivation tree of a program. -/
structure Program where
  decls : List Decl
  stmts : Stmt .stmtList

/-! ### Words -/

/-- The word of an expression. -/
def Expr.yield {form : ExprForm} : Expr form → List Terminal
  | name lexeme => [.name lexeme]
  | constant c => [.of c.kind]
  | parens e => [.of .leftParen] ++ (e.yield ++ [.of .rightParen])
  | plain f => f.yield
  | not f => [.of .not] ++ f.yield
  | minus f => [.of .minus] ++ f.yield
  | factorA f => f.yield
  | mul left op right => left.yield ++ ([.of op.kind] ++ right.yield)
  | term t => t.yield
  | add left op right => left.yield ++ ([.of op.kind] ++ right.yield)
  | simple e => e.yield
  | relation left op right => left.yield ++ ([.of op.kind] ++ right.yield)

/-- The names that a declaration declares. -/
def Decl.names (d : Decl) : List String :=
  d.first :: d.others

/-- The word of the names that follow the first one of a declaration. -/
def Decl.othersYield (others : List String) : List Terminal :=
  others.flatMap fun lexeme => [.of .comma, .name lexeme]

/-- The word of a declaration. -/
def Decl.yield (d : Decl) : List Terminal :=
  [.of d.type.kind] ++ ([.of .colon] ++ (([.name d.first] ++ othersYield d.others) ++
    [.of .semicolon]))

/-- The word of a statement, a list of statements or a body. -/
def Stmt.yield {form : StmtForm} : Stmt form → List Terminal
  | assign target value => [.name target] ++ ([.of .assign] ++ value.yield)
  | ifThen condition body =>
    [.of .kwIf] ++ (condition.yield ++ ([.of .kwThen] ++ (body.yield ++ [.of .kwEnd])))
  | ifElse condition body other =>
    [.of .kwIf] ++ (condition.yield ++ ([.of .kwThen] ++ (body.yield ++
      ([.of .kwElse] ++ (other.yield ++ [.of .kwEnd])))))
  | whileDo condition body =>
    [.of .kwWhile] ++ (condition.yield ++ ([.of .kwDo] ++ (body.yield ++ [.of .kwEnd])))
  | repeatUntil body condition =>
    [.of .kwRepeat] ++ (body.yield ++ ([.of .kwUntil] ++ condition.yield))
  | read name => [.of .kwIn] ++ ([.of .leftParen] ++ ([.name name] ++ [.of .rightParen]))
  | writeLiteral =>
    [.of .kwOut] ++ ([.of .leftParen] ++ ([.of .literal] ++ [.of .rightParen]))
  | write value => [.of .kwOut] ++ ([.of .leftParen] ++ (value.yield ++ [.of .rightParen]))
  | last s => s.yield
  | cons s rest => s.yield ++ ([.of .semicolon] ++ rest.yield)
  | block decls stmts => decls.flatMap Decl.yield ++ stmts.yield

/-- The word of a program. -/
def Program.yield (p : Program) : List Terminal :=
  [.of .kwProgram] ++ (p.decls.flatMap Decl.yield ++
    ([.of .kwBegin] ++ (p.stmts.yield ++ [.of .kwEnd])))

theorem Decl.yield_ne_nil (d : Decl) : d.yield ≠ [] :=
  List.cons_ne_nil _ _

/-- The word of an expression has a terminal at least, for the operand that it begins with. -/
theorem Expr.yield_ne_nil {form : ExprForm} (e : Expr form) : e.yield ≠ [] := by
  induction e with
  | name | constant | parens | not | minus => exact List.cons_ne_nil _ _
  | plain f ih | factorA f ih | term t ih | simple e ih => exact ih
  | mul left op right ih | add left op right ih | relation left op right ih =>
    exact List.append_ne_nil_of_left_ne_nil ih _

theorem Stmt.yield_ne_nil {form : StmtForm} (s : Stmt form) : s.yield ≠ [] := by
  induction s with
  | last s ih => exact ih
  | cons s rest ih => exact List.append_ne_nil_of_left_ne_nil ih _
  | block decls stmts ih => exact List.append_ne_nil_of_right_ne_nil _ ih
  | _ => exact List.cons_ne_nil _ _

/-- A sequence of tokens is derived by a program. -/
def Program.Derives (p : Program) (tokens : List Token) : Prop :=
  tokens.map Token.terminal = p.yield

/-- A sequence of tokens is a program. -/
def Derivable (tokens : List Token) : Prop :=
  ∃ p : Program, p.Derives tokens

/-- A sequence of tokens begins a program. -/
def Viable (tokens : List Token) : Prop :=
  ∃ more, Derivable (tokens ++ more)

/-! ### Spelling words out -/

/-- The tokens of a word stand for it; the kind of names alone is the kind of no token's
    terminal. -/
def Spellable (w : List Terminal) : Prop :=
  ∀ t ∈ w, t.token.terminal = t

theorem Spellable.map_token {w : List Terminal} (h : Spellable w) :
    (w.map Terminal.token).map Token.terminal = w := by
  rw [List.map_map]
  exact (List.map_congr_left h).trans (List.map_id w)

@[simp]
theorem spellable_nil : Spellable [] :=
  List.forall_mem_nil _

@[simp]
theorem spellable_append {v w : List Terminal} :
    Spellable (v ++ w) ↔ Spellable v ∧ Spellable w :=
  List.forall_mem_append

@[simp]
theorem spellable_cons_name {lexeme : String} {w : List Terminal} :
    Spellable (.name lexeme :: w) ↔ Spellable w :=
  List.forall_mem_cons.trans (and_iff_right rfl)

@[simp]
theorem spellable_cons_of {kind : Kind} {w : List Terminal} (h : kind ≠ .ident) :
    Spellable (.of kind :: w) ↔ Spellable w :=
  List.forall_mem_cons.trans (and_iff_right (Token.terminal_of_ne rfl h))

theorem Expr.spellable_yield {form : ExprForm} (e : Expr form) : Spellable e.yield := by
  induction e with
  | name lexeme => simp [yield]
  | constant c =>
    have hc : c.kind ≠ .ident := by cases c <;> decide
    simp [yield, hc]
  | parens e ih | not e ih | minus e ih => simp [yield, ih]
  | plain f ih | factorA f ih | term t ih | simple e ih => exact ih
  | mul left op right ih ih' | add left op right ih ih' | relation left op right ih ih' =>
    have hop : op.kind ≠ .ident := by cases op <;> decide
    simp [yield, hop, ih, ih']

theorem Decl.spellable_yield (d : Decl) : Spellable d.yield := by
  have htype : d.type.kind ≠ .ident := by cases d.type <;> decide
  have hothers : Spellable (othersYield d.others) := by
    intro t ht
    obtain ⟨lexeme, -, ht⟩ := List.mem_flatMap.1 ht
    rcases List.mem_pair.1 ht with rfl | rfl <;> rfl
  simp [yield, htype, hothers]

theorem Decl.spellable_flatMap_yield (decls : List Decl) :
    Spellable (decls.flatMap Decl.yield) := by
  intro t ht
  obtain ⟨d, -, ht⟩ := List.mem_flatMap.1 ht
  exact d.spellable_yield t ht

theorem Stmt.spellable_yield {form : StmtForm} (s : Stmt form) : Spellable s.yield := by
  induction s <;> simp [yield, Expr.spellable_yield, Decl.spellable_flatMap_yield, *]

/-- The word of a program can be spelled out. -/
theorem Program.spellable_yield (p : Program) : Spellable p.yield := by
  simp [yield, Stmt.spellable_yield, Decl.spellable_flatMap_yield]

/-- Tokens before the rest of a program's word begin a program. -/
theorem viable_of_yield {p : Program} {tokens : List Token} {w : List Terminal}
    (h : tokens.map Token.terminal ++ w = p.yield) : Viable tokens := by
  have hw : Spellable w := (spellable_append.1 (h ▸ p.spellable_yield)).2
  refine ⟨w.map Terminal.token, p, ?_⟩
  rw [Program.Derives, List.map_append, hw.map_token, h]

/-! ### Languages -/

open Computability

/-- The words of the expressions of a form. -/
def ExprForm.language (form : ExprForm) : Language Terminal :=
  {w | ∃ e : Expr form, e.yield = w}

/-- The words of the statements of a form. -/
def StmtForm.language (form : StmtForm) : Language Terminal :=
  {w | ∃ s : Stmt form, s.yield = w}

/-- The words of declarations. -/
def declLanguage : Language Terminal :=
  {w | ∃ d : Decl, d.yield = w}

/-- The words of programs. -/
def programLanguage : Language Terminal :=
  {w | ∃ p : Program, p.yield = w}

/-! No phrase is empty. -/

theorem ExprForm.nil_notMem_language (form : ExprForm) : [] ∉ form.language :=
  fun ⟨e, he⟩ => e.yield_ne_nil he

theorem StmtForm.nil_notMem_language (form : StmtForm) : [] ∉ form.language :=
  fun ⟨s, hs⟩ => s.yield_ne_nil hs

theorem nil_notMem_declLanguage : [] ∉ declLanguage :=
  fun ⟨d, hd⟩ => d.yield_ne_nil hd

theorem nil_notMem_programLanguage : [] ∉ programLanguage :=
  fun ⟨_, hp⟩ => List.cons_ne_nil _ _ hp

end MiniPascal
