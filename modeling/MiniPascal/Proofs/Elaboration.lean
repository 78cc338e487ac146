import MiniPascal.Proofs.Grammar
import MiniPascal.SymbolTable

/-!
# The elaboration of programs

What a program declares, told by its derivation tree alone: every name that a declaration
lists, in the order of the text, with its type, the scope it goes into and how many bodies
stand around it (`Program.elaboration`). The names of the program are global; those of a body
go into a scope called by the kind of the body and its number, for which the bodies of the
program are counted in the order in which they begin. As a body begins with its declarations,
that is the order of the declarations too.

The elaboration can be read off the word of a program in one pass (`Outline.read`), so it is
the same for every tree of the word (`Program.elaboration_congr`).
-/

namespace MiniPascal

/-! ### Declarations -/

/-- What a program says of a name where it declares it. -/
structure Declaration where
  name : String
  ty : Ty
  scope : String
  level : Nat
  deriving DecidableEq

/-- What an entry says of its name, apart from the line. -/
def Entry.declaration (entry : Entry) : Declaration :=
  ⟨entry.name, entry.ty, entry.scope, entry.level⟩

/-- Names of a type, declared in a scope on a level. -/
def Declaration.named (ty : Ty) (names : List String) (scope : String) (level : Nat) :
    List Declaration :=
  names.map fun name => ⟨name, ty, scope, level⟩

/-- What a declaration says of its names. -/
def Decl.declarations (d : Decl) : String → Nat → List Declaration :=
  Declaration.named d.type.ty d.names

/-- What declarations say of their names, one after another. -/
def Decl.declared (decls : List Decl) (scope : String) (level : Nat) : List Declaration :=
  decls.flatMap fun d => d.declarations scope level

theorem Declaration.named_cons (ty : Ty) (name : String) (names : List String) (scope : String)
    (level : Nat) : named ty (name :: names) scope level =
      ⟨name, ty, scope, level⟩ :: named ty names scope level := rfl

@[simp]
theorem Decl.declared_nil (scope : String) (level : Nat) : declared [] scope level = [] := rfl

theorem Decl.declared_cons (d : Decl) (decls : List Decl) (scope : String) (level : Nat) :
    declared (d :: decls) scope level = d.declarations scope level ++ declared decls scope level :=
  rfl

/-! ### Bodies -/

/-- What counts of a body for the elaboration: the hint for the name of its scope, the number of
    bodies that a name declared in it stands in, and its declarations. -/
structure Site where
  hint : String
  level : Nat
  decls : List Decl

/-- What the body of a number declares. -/
def Site.declarations (site : Site) (number : Nat) : List Declaration :=
  Decl.declared site.decls s!"{site.hint}#{number}" site.level

/-- What bodies declare that are numbered from `number` on. -/
def Site.elaboration (number : Nat) (sites : List Site) : List Declaration :=
  (sites.zipIdx number).flatMap fun (site, number) => site.declarations number

@[simp]
theorem Site.elaboration_nil (number : Nat) : Site.elaboration number [] = [] := rfl

theorem Site.elaboration_cons (number : Nat) (site : Site) (sites : List Site) :
    Site.elaboration number (site :: sites) =
      site.declarations number ++ Site.elaboration (number + 1) sites := rfl

theorem Site.elaboration_append (number : Nat) (sites sites' : List Site) :
    Site.elaboration number (sites ++ sites') =
      Site.elaboration number sites ++ Site.elaboration (number + sites.length) sites' := by
  rw [elaboration, List.zipIdx_append, List.flatMap_append]
  rfl

namespace Stmt

variable {form : StmtForm}

/-- The declarations that a body begins with. -/
def decls : Stmt form → List Decl
  | block decls _ => decls
  | _ => []

@[simp]
theorem decls_block (decls : List Decl) (stmts : Stmt .stmtList) :
    (block decls stmts).decls = decls := rfl

@[simp]
theorem decls_stmt (s : Stmt .stmt) : s.decls = [] := by
  cases s <;> rfl

@[simp]
theorem decls_stmtList (s : Stmt .stmtList) : s.decls = [] := by
  cases s <;> rfl

/-- The bodies within a statement, a list or a body, in the order in which they begin. The level
    is that of the names declared around it; a body is not within itself. -/
def sites {form : StmtForm} : Stmt form → Nat → List Site
  | ifThen _ body, level => ⟨"if_then", level + 1, body.decls⟩ :: body.sites (level + 1)
  | ifElse _ body other, level =>
    (⟨"if_then", level + 1, body.decls⟩ :: body.sites (level + 1)) ++
      (⟨"if_else", level + 1, other.decls⟩ :: other.sites (level + 1))
  | whileDo _ body, level => ⟨"while_body", level + 1, body.decls⟩ :: body.sites (level + 1)
  | repeatUntil body _, level => ⟨"repeat_body", level + 1, body.decls⟩ :: body.sites (level + 1)
  | last s, level => s.sites level
  | cons s rest, level => s.sites level ++ rest.sites level
  | block _ stmts, level => stmts.sites level
  | assign _ _, _ | read _, _ | writeLiteral, _ | write _, _ => []

/-- The number of bodies within a statement, a list or a body. -/
def bodyCount {form : StmtForm} : Stmt form → Nat
  | ifThen _ body => body.bodyCount + 1
  | ifElse _ body other => (body.bodyCount + 1) + (other.bodyCount + 1)
  | whileDo _ body => body.bodyCount + 1
  | repeatUntil body _ => body.bodyCount + 1
  | last s => s.bodyCount
  | cons s rest => s.bodyCount + rest.bodyCount
  | block _ stmts => stmts.bodyCount
  | assign _ _ | read _ | writeLiteral | write _ => 0

@[simp]
theorem length_sites (s : Stmt form) (level : Nat) : (s.sites level).length = s.bodyCount := by
  induction s generalizing level <;> simp [sites, bodyCount, Nat.add_right_comm, Nat.add_assoc, *]

end Stmt

/-- What a program declares. -/
def Program.elaboration (p : Program) : List Declaration :=
  Decl.declared p.decls "global" 0 ++ Site.elaboration 1 (p.stmts.sites 0)

/-! ### Reading a word -/

/-- What one knows of a word that has been read in part. -/
structure Outline where
  /-- The names of the open scopes, innermost first. -/
  scopes : List String
  /-- How many bodies have begun. -/
  bodies : Nat
  /-- The type of the declaration that is read, if it is one. -/
  type : Option Ty
  declarations : List Declaration

namespace Outline

/-- The beginning of a body. -/
def enter (hint : String) (o : Outline) : Outline :=
  { o with scopes := s!"{hint}#{o.bodies + 1}" :: o.scopes, bodies := o.bodies + 1 }

/-- The end of a body. -/
def leave (o : Outline) : Outline :=
  { o with scopes := o.scopes.tail }

/-- What a word adds that opens and closes scopes alike: bodies and declarations. -/
def add (count : Nat) (new : List Declaration) (o : Outline) : Outline :=
  { o with bodies := o.bodies + count, declarations := o.declarations ++ new }

/-- Reads on by a terminal. -/
def read (o : Outline) : Terminal → Outline
  | .name lexeme =>
    match o.type with
    | none => o
    | some ty => o.add 0 [⟨lexeme, ty, o.scopes.headD "", o.scopes.length - 1⟩]
  | .of .kwInt => { o with type := some .int }
  | .of .kwFloat => { o with type := some .float }
  | .of .kwChar => { o with type := some .char }
  | .of .semicolon => { o with type := none }
  | .of .kwThen => o.enter "if_then"
  | .of .kwElse => o.leave.enter "if_else"
  | .of .kwDo => o.enter "while_body"
  | .of .kwRepeat => o.enter "repeat_body"
  | .of .kwUntil | .of .kwEnd => o.leave
  | .of _ => o

@[simp]
theorem add_nil (o : Outline) : o.add 0 [] = o := by
  simp [add]

@[simp]
theorem add_add (o : Outline) (count count' : Nat) (new new' : List Declaration) :
    (o.add count new).add count' new' = o.add (count + count') (new ++ new') := by
  simp [add, Nat.add_assoc]

@[simp]
theorem type_add (o : Outline) (count : Nat) (new : List Declaration) :
    (o.add count new).type = o.type := rfl

@[simp]
theorem bodies_add (o : Outline) (count : Nat) (new : List Declaration) :
    (o.add count new).bodies = o.bodies + count := rfl

variable {o : Outline}

/-- Expressions declare nothing. -/
theorem foldl_read_expr {form : ExprForm} (e : Expr form) (h : o.type = none) :
    e.yield.foldl read o = o := by
  induction e with
  | name lexeme => simp [Expr.yield, read, h]
  | constant c => cases c <;> rfl
  | parens e ih | not f ih | minus f ih => simp [Expr.yield, read, ih]
  | plain f ih | factorA f ih | term t ih | simple e ih => exact ih
  | mul left op right ih ih' | add left op right ih ih' | relation left op right ih ih' =>
    cases op <;> simp [Expr.yield, read, MulOp.kind, AddOp.kind, RelOp.kind, ih, ih']

variable {scope : String} {outer : List String}

theorem foldl_read_others {ty : Ty} (names : List String) (htype : o.type = some ty)
    (hscopes : o.scopes = scope :: outer) : (Decl.othersYield names).foldl read o =
      o.add 0 (Declaration.named ty names scope outer.length) := by
  induction names generalizing o with
  | nil => exact o.add_nil.symm
  | cons name names ih =>
    have hname : (o.read (.of .comma)).read (.name name) =
        o.add 0 [⟨name, ty, scope, outer.length⟩] := by
      simp [read, htype, hscopes]
    have hrest := ih (o := o.add 0 [⟨name, ty, scope, outer.length⟩]) htype hscopes
    rw [add_add] at hrest
    simpa [Decl.othersYield, hname, Declaration.named_cons] using hrest

theorem foldl_read_names {ty : Ty} (first : String) (others : List String)
    (htype : o.type = some ty) (hscopes : o.scopes = scope :: outer) :
    (Terminal.name first :: Decl.othersYield others).foldl read o =
      o.add 0 (Declaration.named ty (first :: others) scope outer.length) := by
  have hfirst : o.read (.name first) = o.add 0 [⟨first, ty, scope, outer.length⟩] := by
    simp [read, htype, hscopes]
  have hothers := foldl_read_others others (o := o.add 0 [⟨first, ty, scope, outer.length⟩])
    htype hscopes
  rw [List.foldl_cons, hfirst, hothers, add_add]
  rfl

theorem foldl_read_decl (d : Decl) (htype : o.type = none) (hscopes : o.scopes = scope :: outer) :
    d.yield.foldl read o = o.add 0 (d.declarations scope outer.length) := by
  have hnamed : o.read (.of d.type.kind) = { o with type := some d.type.ty } := by
    cases d.type <;> rfl
  have hcolon (o : Outline) : o.read (.of .colon) = o := rfl
  have hnames := foldl_read_names d.first d.others (o := { o with type := some d.type.ty }) rfl
    hscopes
  rw [Decl.yield, List.singleton_append, List.foldl_cons, hnamed, List.singleton_append,
    List.foldl_cons, hcolon, List.foldl_append, List.singleton_append, hnames]
  -- The semicolon ends the declaration, whose type is then known no more.
  simp [read, add, Decl.declarations, Decl.names, Declaration.named, htype]

theorem foldl_read_decls (decls : List Decl) (htype : o.type = none)
    (hscopes : o.scopes = scope :: outer) : (decls.flatMap Decl.yield).foldl read o =
      o.add 0 (Decl.declared decls scope outer.length) := by
  induction decls generalizing o with
  | nil => exact o.add_nil.symm
  | cons d decls ih =>
    have hrest := ih (o := o.add 0 (d.declarations scope outer.length)) htype hscopes
    rw [add_add] at hrest
    rw [List.flatMap_cons, List.foldl_append, foldl_read_decl d htype hscopes, hrest,
      Decl.declared_cons]

/-- Reading a statement adds the bodies within it and what they declare. A body adds in addition
    what it declares itself, in the scope that is open for it. -/
def Additive {form : StmtForm} (s : Stmt form) : Prop :=
  ∀ (o : Outline) (scope : String) (outer : List String), o.type = none →
    o.scopes = scope :: outer → s.yield.foldl read o =
      o.add s.bodyCount (Decl.declared s.decls scope outer.length ++
        Site.elaboration (o.bodies + 1) (s.sites outer.length))

/-- Reading a body, once its scope is open, adds it and the bodies within it. -/
theorem Additive.enter {body : Stmt .body} (h : Additive body) (hint : String)
    (htype : o.type = none) (hscopes : o.scopes = scope :: outer) :
    body.yield.foldl read (o.enter hint) = (o.enter hint).add body.bodyCount
      (Site.elaboration (o.bodies + 1)
        (⟨hint, outer.length + 1, body.decls⟩ :: body.sites (outer.length + 1))) := by
  have hlength : o.scopes.length = outer.length + 1 := congrArg List.length hscopes
  rw [h (o.enter hint) s!"{hint}#{o.bodies + 1}" o.scopes htype rfl, hlength]
  rfl

theorem leave_add_enter (o : Outline) (hint : String) (count : Nat) (new : List Declaration) :
    ((o.enter hint).add count new).leave = o.add (count + 1) new := by
  simp [Outline.enter, add, leave, Nat.add_right_comm, Nat.add_assoc]

theorem read_semicolon (h : o.type = none) : o.read (.of .semicolon) = o := by
  rw [read, ← h]

/-- Reading a statement opens and closes scopes alike. -/
theorem additive {form : StmtForm} (s : Stmt form) : Additive s := by
  induction s with
  | assign | read | writeLiteral | write =>
    intro o scope outer htype hscopes
    simp [Stmt.yield, read, htype, foldl_read_expr, Stmt.bodyCount, Stmt.sites]
  | ifThen condition body ih | whileDo condition body ih | repeatUntil body condition ih =>
    intro o scope outer htype hscopes
    simp [Stmt.yield, read, htype, foldl_read_expr, ih.enter _ htype hscopes, leave_add_enter,
      Stmt.bodyCount, Stmt.sites]
  | ifElse condition body other ih ih' =>
    intro o scope outer htype hscopes
    -- The numbers of the second body and those within it go on from those of the first.
    have hother := ih'.enter (o := o.add (body.bodyCount + 1) (Site.elaboration (o.bodies + 1)
      (⟨"if_then", outer.length + 1, body.decls⟩ :: body.sites (outer.length + 1)))) "if_else"
      htype hscopes
    rw [Stmt.sites, Site.elaboration_append]
    simp [Stmt.yield, read, htype, foldl_read_expr, ih.enter _ htype hscopes, leave_add_enter,
      hother, Stmt.bodyCount, Nat.add_right_comm o.bodies 1 (body.bodyCount + 1)]
  | last s ih =>
    intro o scope outer htype hscopes
    simpa [Stmt.yield, Stmt.bodyCount, Stmt.sites] using ih o scope outer htype hscopes
  | cons s rest ih ih' =>
    intro o scope outer htype hscopes
    have hs := ih o scope outer htype hscopes
    have hrest := ih' (o.add s.bodyCount (Site.elaboration (o.bodies + 1) (s.sites outer.length)))
      scope outer htype hscopes
    rw [Stmt.decls_stmt, Decl.declared_nil, List.nil_append] at hs
    rw [Stmt.yield, List.foldl_append, hs, List.singleton_append, List.foldl_cons,
      read_semicolon (by exact htype), hrest, Stmt.sites, Site.elaboration_append]
    simp [Stmt.bodyCount, Nat.add_right_comm]
  | block decls stmts ih =>
    intro o scope outer htype hscopes
    have hstmts := ih (o.add 0 (Decl.declared decls scope outer.length)) scope outer
      htype hscopes
    rw [Stmt.yield, List.foldl_append, foldl_read_decls decls htype hscopes, hstmts]
    simp [Stmt.bodyCount, Stmt.sites]

/-- What one knows of a program before its first word. -/
def global : Outline :=
  { scopes := ["global"], bodies := 0, type := none, declarations := [] }

end Outline

/-- The number of bodies is that of every tree of a word. -/
theorem Stmt.bodyCount_congr {form : StmtForm} {s s' : Stmt form} (h : s.yield = s'.yield) :
    s.bodyCount = s'.bodyCount := by
  have hbodies (s : Stmt form) : (s.yield.foldl Outline.read .global).bodies = s.bodyCount := by
    rw [Outline.additive s .global "global" [] rfl rfl, Outline.bodies_add]
    exact Nat.zero_add _
  rw [← hbodies, h, hbodies]

/-- What a program declares is what reading its word comes to. -/
theorem Program.elaboration_eq (p : Program) :
    p.elaboration = (p.yield.foldl Outline.read .global).declarations := by
  have hdecls := Outline.foldl_read_decls p.decls (o := .global) rfl rfl
  have hstmts := Outline.additive p.stmts
    (Outline.global.add 0 (Decl.declared p.decls "global" 0)) "global" [] rfl rfl
  rw [List.length_nil] at hdecls hstmts
  rw [Stmt.decls_stmtList, Decl.declared_nil, List.nil_append, Outline.add_add] at hstmts
  -- The words of the program itself declare nothing.
  have hprogram : Outline.global.read (.of .kwProgram) = .global := rfl
  have hbegin (o : Outline) : o.read (.of .kwBegin) = o := rfl
  have hend (o : Outline) : (o.read (.of .kwEnd)).declarations = o.declarations := rfl
  simp only [yield, List.foldl_append, List.foldl_cons, List.foldl_nil, hprogram, hdecls, hbegin,
    hstmts, hend]
  rfl

/-- The elaboration is that of every tree of a word. -/
theorem Program.elaboration_congr {p q : Program} (h : p.yield = q.yield) :
    p.elaboration = q.elaboration := by
  rw [elaboration_eq, h, elaboration_eq]

end MiniPascal
