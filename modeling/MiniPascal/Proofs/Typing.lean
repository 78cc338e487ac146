import MiniPascal.Proofs.Grammar

/-!
# The rules of scopes and types

Which derivation trees obey the rules of the language. The rules speak of an environment
(`Env`), the blocks around a phrase with the names declared in each: `Expr.HasType` gives
an expression its type, `Stmt.WellTyped` says that a statement is well typed, and
`Program.WellTyped` that a program is.

The rules are decided by functions that follow the trees, `Expr.type?` and `Stmt.check`,
and the two agree (`Expr.type?_eq_some_iff`, `Stmt.check_iff`). An expression has at most
one type (`Expr.HasType.unique`).
-/

namespace MiniPascal

/-! ### Environments -/

/-- The names declared in a block, with their types. -/
abbrev Block := List (String × Ty)

/-- The blocks around a phrase, innermost first. -/
abbrev Env := List Block

/-- The names declared in a block. -/
def Block.names (block : Block) : List String :=
  block.map Prod.fst

/-- The type of a name: that of the innermost block in which it is declared. -/
def Env.find? (Γ : Env) (name : String) : Option Ty :=
  Γ.findSome? fun block => block.lookup name

/-- The names of a declaration, with its type. -/
def Decl.bindings (d : Decl) : Block :=
  d.names.map fun name => (name, d.type.ty)

/-- The names of a list of declarations, with their types. -/
def declBindings (decls : List Decl) : Block :=
  decls.flatMap Decl.bindings

/-- No name is declared twice in a list of declarations. -/
def NoneTwice (decls : List Decl) : Prop :=
  (declBindings decls).names.Nodup

instance (decls : List Decl) : Decidable (NoneTwice decls) :=
  inferInstanceAs (Decidable (declBindings decls).names.Nodup)

/-! ### The rules -/

/-- What an operator makes of operands of two types. -/
inductive Joins (op : Kind) : Ty → Ty → Ty → Prop
  | logical : op = .or ∨ op = .and → Joins op .bool .bool .bool
  | arithmetic {left right : Ty} :
    Ty.promote left right ≠ .error → Joins op left right (Ty.promote left right)

/-- In the environment `Γ`, an expression has a type. -/
inductive Expr.HasType (Γ : Env) : {form : ExprForm} → Expr form → Ty → Prop
  | name {lexeme : String} {τ : Ty} : Γ.find? lexeme = some τ → HasType Γ (.name lexeme) τ
  | constant {c : Constant} : HasType Γ (.constant c) c.ty
  | parens {e : Expr .expression} {τ : Ty} : HasType Γ e τ → HasType Γ (.parens e) τ
  | plain {f : Expr .factor} {τ : Ty} : HasType Γ f τ → HasType Γ (.plain f) τ
  | not {f : Expr .factor} : HasType Γ f .bool → HasType Γ (.not f) .bool
  | minus {f : Expr .factor} {τ : Ty} : HasType Γ f τ → τ = .int ∨ τ = .float ∨ τ = .char →
    HasType Γ (.minus f) τ
  | factorA {f : Expr .factorA} {τ : Ty} : HasType Γ f τ → HasType Γ (.factorA f) τ
  | mul {l : Expr .term} {op : MulOp} {r : Expr .factorA} {τ₁ τ₂ τ : Ty} :
    HasType Γ l τ₁ → HasType Γ r τ₂ → Joins op.kind τ₁ τ₂ τ → HasType Γ (.mul l op r) τ
  | term {t : Expr .term} {τ : Ty} : HasType Γ t τ → HasType Γ (.term t) τ
  | add {l : Expr .simpleExpr} {op : AddOp} {r : Expr .term} {τ₁ τ₂ τ : Ty} :
    HasType Γ l τ₁ → HasType Γ r τ₂ → Joins op.kind τ₁ τ₂ τ → HasType Γ (.add l op r) τ
  | simple {e : Expr .simpleExpr} {τ : Ty} : HasType Γ e τ → HasType Γ (.simple e) τ
  | relation {l r : Expr .simpleExpr} {op : RelOp} {τ₁ τ₂ : Ty} :
    HasType Γ l τ₁ → HasType Γ r τ₂ → Ty.comparable τ₁ τ₂ → HasType Γ (.relation l op r) .bool

/-- In the environment `Γ`, a statement, a list of statements or a body is well typed. A
    body is judged in a block of its own, and the condition after one outside that block. -/
inductive Stmt.WellTyped : Env → {form : StmtForm} → Stmt form → Prop
  | assign {Γ : Env} {target : String} {value : Expr .simpleExpr} {τ : Ty} :
    Γ.find? target = some τ → value.HasType Γ τ → WellTyped Γ (.assign target value)
  | ifThen {Γ : Env} {c : Expr .expression} {body : Stmt .body} :
    c.HasType Γ .bool → WellTyped Γ body → WellTyped Γ (.ifThen c body)
  | ifElse {Γ : Env} {c : Expr .expression} {body other : Stmt .body} :
    c.HasType Γ .bool → WellTyped Γ body → WellTyped Γ other → WellTyped Γ (.ifElse c body other)
  | whileDo {Γ : Env} {c : Expr .expression} {body : Stmt .body} :
    c.HasType Γ .bool → WellTyped Γ body → WellTyped Γ (.whileDo c body)
  | repeatUntil {Γ : Env} {body : Stmt .body} {c : Expr .expression} :
    WellTyped Γ body → c.HasType Γ .bool → WellTyped Γ (.repeatUntil body c)
  | read {Γ : Env} {name : String} {τ : Ty} : Γ.find? name = some τ → WellTyped Γ (.read name)
  | writeLiteral {Γ : Env} : WellTyped Γ .writeLiteral
  | write {Γ : Env} {value : Expr .simpleExpr} {τ : Ty} :
    value.HasType Γ τ → WellTyped Γ (.write value)
  | last {Γ : Env} {s : Stmt .stmt} : WellTyped Γ s → WellTyped Γ (.last s)
  | cons {Γ : Env} {s : Stmt .stmt} {rest : Stmt .stmtList} :
    WellTyped Γ s → WellTyped Γ rest → WellTyped Γ (.cons s rest)
  | block {Γ : Env} {decls : List Decl} {stmts : Stmt .stmtList} :
    NoneTwice decls → WellTyped (declBindings decls :: Γ) stmts → WellTyped Γ (.block decls stmts)

/-- A program is well typed: its declarations make up the outermost block. -/
structure Program.WellTyped (p : Program) : Prop where
  noneTwice : NoneTwice p.decls
  stmts : p.stmts.WellTyped [declBindings p.decls]

/-! ### Deciding the rules -/

/-- The type that an operator makes of operands of two types, if it has one. -/
def join? (op : Kind) (left right : Ty) : Option Ty :=
  if (op = .or ∨ op = .and) ∧ left = .bool ∧ right = .bool then some .bool
  else if Ty.promote left right = .error then none
  else some (Ty.promote left right)

/-- The type of an expression, if it has one. -/
def Expr.type? (Γ : Env) {form : ExprForm} : Expr form → Option Ty
  | name lexeme => Γ.find? lexeme
  | constant c => some c.ty
  | parens e => e.type? Γ
  | plain f => f.type? Γ
  | not f => (f.type? Γ).bind fun τ => if τ = .bool then some .bool else none
  | minus f => (f.type? Γ).bind fun τ => if τ.negatable then some τ else none
  | factorA f => f.type? Γ
  | mul left op right => (left.type? Γ).bind fun τ₁ => (right.type? Γ).bind (join? op.kind τ₁)
  | term t => t.type? Γ
  | add left op right => (left.type? Γ).bind fun τ₁ => (right.type? Γ).bind (join? op.kind τ₁)
  | simple e => e.type? Γ
  | relation left _ right => (left.type? Γ).bind fun τ₁ => (right.type? Γ).bind fun τ₂ =>
    if Ty.comparable τ₁ τ₂ then some .bool else none

/-- Whether a statement, a list of statements or a body is well typed. -/
def Stmt.check : Env → {form : StmtForm} → Stmt form → Bool
  | Γ, _, assign target value => (Γ.find? target).isSome && value.type? Γ = Γ.find? target
  | Γ, _, ifThen c body => c.type? Γ = some .bool && body.check Γ
  | Γ, _, ifElse c body other => c.type? Γ = some .bool && body.check Γ && other.check Γ
  | Γ, _, whileDo c body => c.type? Γ = some .bool && body.check Γ
  | Γ, _, repeatUntil body c => body.check Γ && c.type? Γ = some .bool
  | Γ, _, read name => (Γ.find? name).isSome
  | _, _, writeLiteral => true
  | Γ, _, write value => (value.type? Γ).isSome
  | Γ, _, last s => s.check Γ
  | Γ, _, cons s rest => s.check Γ && rest.check Γ
  | Γ, _, block decls stmts => NoneTwice decls && stmts.check (declBindings decls :: Γ)

theorem join?_eq_some_iff {op : Kind} {left right τ : Ty} :
    join? op left right = some τ ↔ Joins op left right τ := by
  constructor
  · intro h
    unfold join? at h
    split at h
    · next hbool =>
      obtain ⟨hop, rfl, rfl⟩ := hbool
      cases h
      exact .logical hop
    · split at h
      · cases h
      · next herror =>
        cases h
        exact .arithmetic herror
  · rintro (hop | herror)
    · exact if_pos ⟨hop, rfl, rfl⟩
    · rw [join?, if_neg, if_neg herror]
      rintro ⟨-, rfl, rfl⟩
      exact herror rfl

theorem Ty.negatable_iff {τ : Ty} : τ.negatable = true ↔ τ = .int ∨ τ = .float ∨ τ = .char := by
  cases τ <;> decide

/-- The type computed for an expression is the one it has by the rules. -/
theorem Expr.type?_eq_some_iff {Γ : Env} {form : ExprForm} {e : Expr form} {τ : Ty} :
    e.type? Γ = some τ ↔ e.HasType Γ τ := by
  induction e generalizing τ with
  | name lexeme => exact ⟨.name, fun h => by cases h; assumption⟩
  | constant c => exact ⟨fun h => by cases h; exact .constant, fun h => by cases h; rfl⟩
  | parens e ih => exact ⟨fun h => .parens (ih.1 h), fun h => by cases h; exact ih.2 ‹_›⟩
  | plain f ih => exact ⟨fun h => .plain (ih.1 h), fun h => by cases h; exact ih.2 ‹_›⟩
  | factorA f ih => exact ⟨fun h => .factorA (ih.1 h), fun h => by cases h; exact ih.2 ‹_›⟩
  | term t ih => exact ⟨fun h => .term (ih.1 h), fun h => by cases h; exact ih.2 ‹_›⟩
  | simple e ih => exact ⟨fun h => .simple (ih.1 h), fun h => by cases h; exact ih.2 ‹_›⟩
  | not f ih =>
    simp only [type?, Option.bind_eq_some_iff]
    constructor
    · rintro ⟨σ, hσ, h⟩
      split at h
      · next hbool =>
        subst hbool
        cases h
        exact .not (ih.1 hσ)
      · cases h
    · rintro ⟨⟩
      exact ⟨.bool, ih.2 ‹_›, rfl⟩
  | minus f ih =>
    simp only [type?, Option.bind_eq_some_iff]
    constructor
    · rintro ⟨σ, hσ, h⟩
      split at h
      · next hneg =>
        cases h
        exact .minus (ih.1 hσ) (Ty.negatable_iff.1 hneg)
      · cases h
    · rintro ⟨⟩
      exact ⟨τ, ih.2 ‹_›, if_pos (Ty.negatable_iff.2 ‹_›)⟩
  | mul left op right ihl ihr =>
    simp only [type?, Option.bind_eq_some_iff]
    constructor
    · rintro ⟨τ₁, h₁, τ₂, h₂, h⟩
      exact .mul (ihl.1 h₁) (ihr.1 h₂) (join?_eq_some_iff.1 h)
    · intro h
      cases h with
      | mul h₁ h₂ h => exact ⟨_, ihl.2 h₁, _, ihr.2 h₂, join?_eq_some_iff.2 h⟩
  | add left op right ihl ihr =>
    simp only [type?, Option.bind_eq_some_iff]
    constructor
    · rintro ⟨τ₁, h₁, τ₂, h₂, h⟩
      exact .add (ihl.1 h₁) (ihr.1 h₂) (join?_eq_some_iff.1 h)
    · intro h
      cases h with
      | add h₁ h₂ h => exact ⟨_, ihl.2 h₁, _, ihr.2 h₂, join?_eq_some_iff.2 h⟩
  | relation left op right ihl ihr =>
    simp only [type?, Option.bind_eq_some_iff]
    constructor
    · rintro ⟨τ₁, h₁, τ₂, h₂, h⟩
      split at h
      · next hcomp =>
        cases h
        exact .relation (ihl.1 h₁) (ihr.1 h₂) hcomp
      · cases h
    · intro h
      cases h with
      | relation h₁ h₂ hcomp => exact ⟨_, ihl.2 h₁, _, ihr.2 h₂, if_pos hcomp⟩

/-- An expression has at most one type. -/
theorem Expr.HasType.unique {Γ : Env} {form : ExprForm} {e : Expr form} {σ τ : Ty}
    (hσ : e.HasType Γ σ) (hτ : e.HasType Γ τ) : σ = τ :=
  Option.some.inj ((type?_eq_some_iff.2 hσ).symm.trans (type?_eq_some_iff.2 hτ))

/-- A statement is found well typed if it is so by the rules. -/
theorem Stmt.check_iff {Γ : Env} {form : StmtForm} {s : Stmt form} :
    s.check Γ = true ↔ s.WellTyped Γ := by
  induction s generalizing Γ with
  | assign target value =>
    simp only [check, Bool.and_eq_true, decide_eq_true_eq, Option.isSome_iff_exists]
    constructor
    · rintro ⟨⟨τ, hτ⟩, h⟩
      exact .assign hτ (Expr.type?_eq_some_iff.1 (h.trans hτ))
    · intro h
      cases h with
      | assign hτ h => exact ⟨⟨_, hτ⟩, (Expr.type?_eq_some_iff.2 h).trans hτ.symm⟩
  | ifThen c body ih =>
    simp only [check, Bool.and_eq_true, decide_eq_true_eq, Expr.type?_eq_some_iff, ih]
    exact ⟨fun ⟨hc, h⟩ => .ifThen hc h, fun h => by cases h; exact ⟨‹_›, ‹_›⟩⟩
  | ifElse c body other ih ih' =>
    simp only [check, Bool.and_eq_true, decide_eq_true_eq, Expr.type?_eq_some_iff, ih, ih']
    exact ⟨fun ⟨⟨hc, h⟩, h'⟩ => .ifElse hc h h', fun h => by cases h; exact ⟨⟨‹_›, ‹_›⟩, ‹_›⟩⟩
  | whileDo c body ih =>
    simp only [check, Bool.and_eq_true, decide_eq_true_eq, Expr.type?_eq_some_iff, ih]
    exact ⟨fun ⟨hc, h⟩ => .whileDo hc h, fun h => by cases h; exact ⟨‹_›, ‹_›⟩⟩
  | repeatUntil body c ih =>
    simp only [check, Bool.and_eq_true, decide_eq_true_eq, Expr.type?_eq_some_iff, ih]
    exact ⟨fun ⟨h, hc⟩ => .repeatUntil h hc, fun h => by cases h; exact ⟨‹_›, ‹_›⟩⟩
  | read name =>
    simp only [check, Option.isSome_iff_exists]
    exact ⟨fun ⟨_, h⟩ => .read h, fun h => by cases h; exact ⟨_, ‹_›⟩⟩
  | writeLiteral => exact ⟨fun _ => .writeLiteral, fun _ => rfl⟩
  | write value =>
    simp only [check, Option.isSome_iff_exists, Expr.type?_eq_some_iff]
    exact ⟨fun ⟨_, h⟩ => .write h, fun h => by cases h; exact ⟨_, ‹_›⟩⟩
  | last s ih =>
    simp only [check, ih]
    exact ⟨.last, fun h => by cases h; assumption⟩
  | cons s rest ih ih' =>
    simp only [check, Bool.and_eq_true, ih, ih']
    exact ⟨fun ⟨h, h'⟩ => .cons h h', fun h => by cases h; exact ⟨‹_›, ‹_›⟩⟩
  | block decls stmts ih =>
    simp only [check, Bool.and_eq_true, decide_eq_true_eq, ih]
    exact ⟨fun ⟨h, h'⟩ => .block h h', fun h => by cases h; exact ⟨‹_›, ‹_›⟩⟩

/-- A program is well typed if none of its names is declared twice and its statements are. -/
theorem Program.wellTyped_iff {p : Program} :
    p.WellTyped ↔ NoneTwice p.decls ∧ p.stmts.check [declBindings p.decls] = true := by
  rw [Stmt.check_iff]
  constructor
  · intro h
    exact ⟨h.noneTwice, h.stmts⟩
  · rintro ⟨hdecls, hstmts⟩
    exact ⟨hdecls, hstmts⟩

instance (p : Program) : Decidable p.WellTyped :=
  decidable_of_iff _ Program.wellTyped_iff.symm

end MiniPascal
