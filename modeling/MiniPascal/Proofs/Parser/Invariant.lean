import MiniPascal.Compile
import MiniPascal.Proofs.Parser.Recognition

/-!
# What a parser keeps

What holds of a parser before a procedure and is kept by the few operations that procedures
are made of holds after the procedure, and where it is interrupted something holds that the
failing operation leaves. So a property of all runs of the parser is proved from its
operations alone: an `Invariant` is an assertion with those laws.

A parser moves on only from a token, never at the end of the text, so a law of `move` may
count on one (`Assertion.KeepsLooking`).

Only a body and the whole program open a scope, and they close it again. What is asserted may
depend on the number of open scopes: a `LeveledInvariant` has an assertion for each, and
`LeveledInvariant.kept_check` says that the whole check keeps them. A `ScopedInvariant` asserts
the same for all.
-/

namespace MiniPascal

/-- What a failed scan interrupts a parser with. -/
def ScanFailure.interrupt (line : Nat) : ScanFailure → Interrupt
  | lexical cause => .fault ⟨.lexical cause, some line⟩
  | oversizedNumeral => .abort .oversizedNumeral
  | realOverflow => .abort .realOverflow
  | unreadable failure => .abort (.unreadable failure)

namespace Parsing

variable {α β : Type}

theorem failScan_eq (line : Nat) (failure : ScanFailure) :
    (failScan line failure : Parsing α) = throw (failure.interrupt line) := by
  cases failure <;> rfl

/-- What is said of a parser between two operations, and where it is interrupted. -/
structure Assertion where
  holds : Parser → Prop
  stops : Interrupt → Parser → Prop

namespace Assertion

variable (A : Assertion)

/-- A run ends or is interrupted as asserted. -/
def Kept : Result α → Prop
  | .ok _ s => A.holds s
  | .error e s => A.stops e s

/-- A procedure keeps what is asserted. -/
def Keeps (m : Parsing α) : Prop :=
  ∀ s, A.holds s → A.Kept (m.run s)

/-- A procedure keeps what is asserted where a token is looked at. -/
def KeepsLooking (m : Parsing α) : Prop :=
  ∀ s token, s.look = some token → A.holds s → A.Kept (m.run s)

variable {A}

theorem Keeps.looking {m : Parsing α} (h : A.Keeps m) : A.KeepsLooking m :=
  fun s _ _ hs => h s hs

theorem keeps_pure (a : α) : A.Keeps (pure a) :=
  fun _ hs => hs

/-- A result that is asserted one way may go on to be asserted another way. -/
theorem Kept.onward {B : Assertion} {r : Result α} {f : α → Parsing β} (h : A.Kept r)
    (hstops : ∀ e s, A.stops e s → B.stops e s)
    (hf : ∀ a s, A.holds s → B.Kept ((f a).run s)) : B.Kept (Result.bind r f) := by
  cases r with
  | ok a s => exact hf a s h
  | error e s => exact hstops e s h

theorem Kept.bind {r : Result α} {f : α → Parsing β} (h : A.Kept r) (hf : ∀ a, A.Keeps (f a)) :
    A.Kept (Result.bind r f) :=
  h.onward (fun _ _ => id) hf

theorem Keeps.bind {m : Parsing α} {f : α → Parsing β} (h : A.Keeps m)
    (hf : ∀ a, A.Keeps (f a)) : A.Keeps (m >>= f) := by
  intro s hs
  rw [run_bind]
  exact (h s hs).bind hf

theorem KeepsLooking.bind {m : Parsing α} {f : α → Parsing β} (h : A.KeepsLooking m)
    (hf : ∀ a, A.Keeps (f a)) : A.KeepsLooking (m >>= f) := by
  intro s token hlook hs
  rw [run_bind]
  exact (h s token hlook hs).bind hf

theorem keeps_lookKind?_bind {f : Option Kind → Parsing α} (hnone : A.Keeps (f none))
    (hsome : ∀ kind, A.KeepsLooking (f (some kind))) : A.Keeps (lookKind? >>= f) := by
  intro s hs
  rw [run_bind, run_lookKind?, bind_ok]
  cases hlook : s.look with
  | none => exact hnone s hs
  | some token => exact hsome token.kind s token hlook hs

theorem keeps_looking_bind {p : Kind → Bool} {f : Bool → Parsing α} (hfalse : A.Keeps (f false))
    (htrue : A.KeepsLooking (f true)) : A.Keeps (looking p >>= f) := by
  intro s hs
  rw [run_bind, run_looking, bind_ok]
  cases hlooking : (s.look.map Token.kind).any p with
  | false => exact hfalse s hs
  | true =>
    obtain ⟨token, hlook, -⟩ := looking_iff.1 hlooking
    exact htrue s token hlook hs

/-- What a step is, told by the scan that it pulls: it looks at a token or the end of the text,
    or is interrupted by a failure. -/
theorem kept_move {s : Parser} (hnil : s.pending = [] → A.holds (atNext s none s.line []))
    (hok : ∀ next lexer pending, s.pending = ⟨.ok next, lexer⟩ :: pending →
      A.holds (atNext s next lexer.line pending))
    (herror : ∀ failure lexer pending, s.pending = ⟨.error failure, lexer⟩ :: pending →
      A.stops (failure.interrupt lexer.line) { s with pending, line := lexer.line }) :
    A.Kept (move.run s) := by
  match hpending : s.pending with
  | [] =>
    rw [run_move_nil hpending]
    exact hnil hpending
  | ⟨.ok next, lexer⟩ :: pending =>
    rw [run_move_ok hpending]
    exact hok next lexer pending hpending
  | ⟨.error failure, lexer⟩ :: pending =>
    rw [run_move_error hpending, failScan_eq]
    exact herror failure lexer pending hpending

/-- A loop keeps what every turn keeps. -/
theorem keeps_whileLooking {p : Kind → Bool} {step : Kind → α → Parsing α}
    (h : ∀ kind a, A.KeepsLooking (step kind a)) (a : α) : A.Keeps (whileLooking p a step) := by
  have hrepeat (fuel : Nat) (a : α) : A.Keeps (repeatWhile p step fuel a) := by
    induction fuel generalizing a with
    | zero => exact keeps_pure a
    | succ fuel ih =>
      refine keeps_lookKind?_bind (keeps_pure a) fun kind => ?_
      simp only
      split
      · exact (h kind a).bind ih
      · exact (keeps_pure a).looking
  exact fun s hs => hrepeat _ a s hs

end Assertion

open Assertion

/-- An assertion that the operations of the parser keep, those on scopes apart. -/
structure Invariant extends Assertion where
  moves : toAssertion.KeepsLooking move
  looksUp (name : String) : toAssertion.Keeps (lookup name)
  failsSyntax {s : Parser} (expectation : Expectation) : holds s →
    stops (.fault ⟨.syntactic expectation s.look, some s.line⟩) s
  failsSemantic {s : Parser} (cause : SemanticCause) : holds s →
    stops (.fault ⟨.semantic cause, some s.line⟩) s
  failsTooDeep {s : Parser} : holds s → stops .tooDeep s

namespace Invariant

variable {I : Invariant}

theorem keeps_failSyntax (expectation : Expectation) :
    I.Keeps (failSyntax expectation : Parsing α) :=
  fun _ hs => I.failsSyntax expectation hs

theorem keeps_failSemantic (cause : SemanticCause) : I.Keeps (failSemantic cause : Parsing α) :=
  fun _ hs => I.failsSemantic cause hs

theorem keeps_tooDeep : I.Keeps (throw .tooDeep : Parsing α) :=
  fun _ hs => I.failsTooDeep hs

theorem keeps_expect (kind : Kind) : I.Keeps (expect kind) := by
  intro s hs
  by_cases hlook : s.look.map Token.kind = some kind
  · obtain ⟨token, htoken, rfl⟩ := Option.map_eq_some_iff.1 hlook
    rw [run_expect htoken]
    exact (I.moves s token htoken hs).bind fun _ => keeps_pure token
  · rw [run_expect_of_ne hlook]
    exact I.failsSyntax _ hs

/-! ### Expressions -/

theorem keeps_binary (op : Kind) (left right : Ty) : I.Keeps (binary op left right) := by
  rw [binary]
  split
  · exact keeps_pure _
  · simp only [arithmetic]
    split
    · exact keeps_failSemantic _
    · exact keeps_pure _

theorem keeps_requireBool (ty : Ty) (what : String) : I.Keeps (requireBool ty what) := by
  rw [requireBool]
  split
  · exact keeps_pure _
  · exact keeps_failSemantic _

theorem keeps_constant : I.Keeps constant := by
  refine keeps_lookKind?_bind (keeps_failSyntax _) fun kind => ?_
  simp only [Option.bind_some]
  split
  · exact I.moves.bind fun _ => keeps_pure _
  · exact (keeps_failSyntax _).looking

variable {inner : Parsing Ty}

theorem keeps_factor (hinner : I.Keeps inner) : I.Keeps (factor inner) := by
  refine keeps_lookKind?_bind (keeps_failSyntax _) fun kind => Keeps.looking ?_
  split
  · exact (keeps_expect _).bind fun token => I.looksUp token.text
  · refine (keeps_expect _).bind fun _ => hinner.bind fun ty => ?_
    exact (keeps_expect _).bind fun _ => keeps_pure ty
  · split
    · exact keeps_constant
    · exact keeps_failSyntax _
  · exact keeps_failSyntax _

theorem keeps_factorA (hinner : I.Keeps inner) : I.Keeps (factorA inner) := by
  refine keeps_lookKind?_bind (keeps_factor hinner) fun kind => ?_
  split
  · refine I.moves.bind fun _ => (keeps_factor hinner).bind fun ty => ?_
    exact (keeps_requireBool ty _).bind fun _ => keeps_pure _
  · refine I.moves.bind fun _ => (keeps_factor hinner).bind fun ty => ?_
    split
    · exact keeps_pure ty
    · exact keeps_failSemantic _
  · exact (keeps_factor hinner).looking

theorem keeps_chain {isOp : Kind → Bool} {operand : Parsing Ty} (h : I.Keeps operand) :
    I.Keeps (chain isOp operand) := by
  refine h.bind fun first => keeps_whileLooking (fun op left => ?_) first
  exact I.moves.bind fun _ => h.bind fun right => keeps_binary op left right

theorem keeps_simpleExpr (hinner : I.Keeps inner) : I.Keeps (simpleExpr inner) :=
  keeps_chain (keeps_chain (keeps_factorA hinner))

theorem keeps_expression (hinner : I.Keeps inner) : I.Keeps (expression inner) := by
  refine (keeps_simpleExpr hinner).bind fun left => ?_
  refine keeps_looking_bind (keeps_pure left) ?_
  refine I.moves.bind fun _ => (keeps_simpleExpr hinner).bind fun right => ?_
  split
  · exact keeps_pure _
  · exact keeps_failSemantic _

theorem keeps_parenthesized (budget : Nat) : I.Keeps (parenthesized budget) := by
  induction budget using parenthesized.induct with
  | case1 budget ih => exact keeps_expression ih
  | case2 budget h =>
    rw [parenthesized]
    · exact keeps_tooDeep
    · exact h

/-! ### Statements without bodies -/

theorem keeps_assignStmt (hinner : I.Keeps inner) : I.Keeps (assignStmt inner) := by
  refine (keeps_expect _).bind fun token => (I.looksUp token.text).bind fun target => ?_
  refine (keeps_expect _).bind fun _ => (keeps_simpleExpr hinner).bind fun value => ?_
  split
  · exact keeps_pure _
  · exact keeps_failSemantic _

theorem keeps_readStmt : I.Keeps readStmt := by
  refine (keeps_expect _).bind fun _ => (keeps_expect _).bind fun _ => ?_
  refine (keeps_expect _).bind fun token => (I.looksUp token.text).bind fun _ => ?_
  exact (keeps_expect _).bind fun _ => keeps_pure ()

theorem keeps_writeStmt (hinner : I.Keeps inner) : I.Keeps (writeStmt inner) := by
  have hwritable : I.Keeps (writable inner) := by
    refine keeps_looking_bind ((keeps_simpleExpr hinner).bind fun _ => keeps_pure ()) ?_
    exact ((keeps_expect _).bind fun _ => keeps_pure ()).looking
  refine (keeps_expect _).bind fun _ => (keeps_expect _).bind fun _ => hwritable.bind fun _ => ?_
  exact (keeps_expect _).bind fun _ => keeps_pure ()

/-! ### Declarations -/

/-- What is declared has a type that a declaration can name. -/
theorem keeps_typeSpec_bind {f : Ty → Parsing α} (hf : ∀ type : TypeName, I.Keeps (f type.ty)) :
    I.Keeps (typeSpec >>= f) := by
  intro s hs
  simp only [typeSpec, run_bind, run_lookKind?, bind_ok]
  cases hty : (s.look.map Token.kind).bind Kind.declaredType? with
  | none => exact I.failsSyntax _ hs
  | some ty =>
    obtain ⟨kind, hkind, hty⟩ := Option.bind_eq_some_iff.1 hty
    obtain ⟨token, hlook, rfl⟩ := Option.map_eq_some_iff.1 hkind
    obtain ⟨type, -, rfl⟩ := Kind.declaredType?_eq_some_iff.1 hty
    have hmove := I.moves s token hlook hs
    simp only [run_bind]
    cases hrun : move.run s with
    | ok _ s' =>
      rw [hrun] at hmove
      exact hf type s' hmove
    | error e s' =>
      rw [hrun] at hmove
      exact hmove

theorem keeps_optionalDecls_of_decl (hdecl : I.Keeps decl) : I.Keeps optionalDecls := by
  refine keeps_looking_bind (keeps_pure ()) (Keeps.looking ?_)
  exact hdecl.bind fun _ => keeps_whileLooking (fun _ _ => hdecl.looking) ()

section Declarations

variable (hdeclares : ∀ (name : String) (type : TypeName), I.Keeps (declare name type.ty))
include hdeclares

theorem keeps_declaredName (type : TypeName) : I.Keeps (declaredName type.ty) :=
  (keeps_expect _).bind fun token => hdeclares token.text type

theorem keeps_decl : I.Keeps decl := by
  refine keeps_typeSpec_bind fun type => (keeps_expect _).bind fun _ => ?_
  have hnames : I.Keeps (identList type.ty) := by
    refine (keeps_declaredName hdeclares type).bind fun _ => keeps_whileLooking (fun _ _ => ?_) ()
    exact ((keeps_expect _).bind fun _ => keeps_declaredName hdeclares type).looking
  exact hnames.bind fun _ => (keeps_expect _).bind fun _ => keeps_pure ()

theorem keeps_optionalDecls : I.Keeps optionalDecls :=
  keeps_optionalDecls_of_decl (keeps_decl hdeclares)

end Declarations

/-! ### Statements with bodies -/

section Nested

variable {nested : Nested} (hinner : I.Keeps nested.inner)
  (hbody : ∀ kind, I.Keeps (nested.body kind))
include hinner hbody

theorem keeps_ifStmt : I.Keeps (ifStmt nested) := by
  have hend : I.Keeps (do let _ ← expect .kwEnd) := (keeps_expect _).bind fun _ => keeps_pure ()
  refine (keeps_expect _).bind fun _ => (keeps_expression hinner).bind fun ty => ?_
  refine (keeps_requireBool ty _).bind fun _ => (keeps_expect _).bind fun _ => ?_
  refine (hbody .ifThen).bind fun _ => keeps_looking_bind hend (Keeps.looking ?_)
  exact (keeps_expect _).bind fun _ => (hbody .ifElse).bind fun _ => hend

theorem keeps_whileStmt : I.Keeps (whileStmt nested) := by
  refine (keeps_expect _).bind fun _ => (keeps_expression hinner).bind fun ty => ?_
  refine (keeps_requireBool ty _).bind fun _ => (keeps_expect _).bind fun _ => ?_
  exact (hbody .whileBody).bind fun _ => (keeps_expect _).bind fun _ => keeps_pure ()

theorem keeps_repeatStmt : I.Keeps (repeatStmt nested) := by
  refine (keeps_expect _).bind fun _ => (hbody .repeatBody).bind fun _ => ?_
  refine (keeps_expect _).bind fun _ => (keeps_expression hinner).bind fun ty => ?_
  exact keeps_requireBool ty _

theorem keeps_stmt : I.Keeps (stmt nested) := by
  refine keeps_lookKind?_bind (keeps_failSyntax _) fun kind => Keeps.looking ?_
  split
  · exact keeps_failSyntax _
  · exact keeps_assignStmt hinner
  · exact keeps_ifStmt hinner hbody
  · exact keeps_whileStmt hinner hbody
  · exact keeps_repeatStmt hinner hbody
  · exact keeps_readStmt
  · exact keeps_writeStmt hinner
  · exact keeps_failSyntax _

theorem keeps_stmtList : I.Keeps (stmtList nested) := by
  have hstmt := keeps_stmt hinner hbody
  refine hstmt.bind fun _ => keeps_whileLooking (fun _ _ => ?_) ()
  exact ((keeps_expect _).bind fun _ => hstmt).looking

end Nested

end Invariant

open Invariant

/-- Assertions that all operations of the parser keep, one for each number of open scopes. To
    open a scope and to close it lead from one to another; the other operations are done within
    a scope. A declaration counts as one operation: halfway through it something else may hold.
    The global scope is opened once, so another assertion may be made after it is closed than
    before it was opened. -/
structure LeveledInvariant where
  holds : Nat → Parser → Prop
  ended : Parser → Prop
  stops : Interrupt → Parser → Prop
  moves (n : Nat) : Assertion.KeepsLooking ⟨holds (n + 1), stops⟩ move
  looksUp (n : Nat) (name : String) : Assertion.Keeps ⟨holds (n + 1), stops⟩ (lookup name)
  declares (n : Nat) : Assertion.Keeps ⟨holds (n + 1), stops⟩ decl
  enters (n : Nat) (hint : Option String) {s : Parser} : holds n s →
    Assertion.Kept ⟨holds (n + 1), stops⟩ ((enterScope hint).run s)
  leaves (n : Nat) {s : Parser} : holds (n + 2) s →
    Assertion.Kept ⟨holds (n + 1), stops⟩ (leaveScope.run s)
  ends {s : Parser} : holds 1 s → Assertion.Kept ⟨ended, stops⟩ (leaveScope.run s)
  failsSyntax {n : Nat} {s : Parser} (expectation : Expectation) : holds (n + 1) s →
    stops (.fault ⟨.syntactic expectation s.look, some s.line⟩) s
  failsSemantic {n : Nat} {s : Parser} (cause : SemanticCause) : holds (n + 1) s →
    stops (.fault ⟨.semantic cause, some s.line⟩) s
  failsTooDeep {n : Nat} {s : Parser} : holds (n + 1) s → stops .tooDeep s

namespace LeveledInvariant

variable (I : LeveledInvariant) (n : Nat)

/-- What is asserted with `n` open scopes. -/
def assertion : Assertion :=
  ⟨I.holds n, I.stops⟩

/-- What is asserted within a scope, with `n` scopes around it. -/
def within : Invariant where
  toAssertion := I.assertion (n + 1)
  moves := I.moves n
  looksUp := I.looksUp n
  failsSyntax := I.failsSyntax
  failsSemantic := I.failsSemantic
  failsTooDeep := I.failsTooDeep

variable {I n}

/-- A body opens a scope for what it holds, and closes it. -/
theorem keeps_block {nested : Nested} (hinner : (I.within (n + 1)).Keeps nested.inner)
    (hbody : ∀ kind, (I.within (n + 1)).Keeps (nested.body kind)) (hint : Option String) :
    (I.within n).Keeps (block nested hint) := by
  intro s hs
  rw [block, run_bind]
  refine (I.enters (n + 1) hint hs).onward (fun _ _ => id) fun _ s₁ hs₁ => ?_
  have hdecls : (I.within (n + 1)).Kept (optionalDecls.run s₁) :=
    keeps_optionalDecls_of_decl (I.declares (n + 1)) s₁ hs₁
  rw [run_bind]
  refine hdecls.onward (fun _ _ => id) fun _ s₂ hs₂ => ?_
  rw [run_bind]
  exact (keeps_stmtList hinner hbody s₂ hs₂).onward (fun _ _ => id) fun _ _ => I.leaves n

theorem keeps_body (budget : Nat) (kind : BodyKind) : (I.within n).Keeps (body budget kind) := by
  induction budget using body.induct generalizing n kind with
  | case1 budget ih => exact keeps_block (keeps_parenthesized budget) ih _
  | case2 budget h =>
    rw [body]
    · exact keeps_tooDeep
    · exact h

theorem keeps_program (budget : Nat) :
    (I.within n).Keeps (program (Parsing.nested budget)) := by
  have hlist : (I.within n).Keeps (stmtList (Parsing.nested budget)) :=
    keeps_stmtList (keeps_parenthesized budget) (keeps_body budget)
  have hdecls : (I.within n).Keeps optionalDecls := keeps_optionalDecls_of_decl (I.declares n)
  refine (keeps_expect _).bind fun _ => hdecls.bind fun _ => ?_
  refine (keeps_expect _).bind fun _ => hlist.bind fun _ => ?_
  exact (keeps_expect _).bind fun _ => keeps_pure ()

/-- What holds after the first scan of a stream, with no scope open, leads its check to what holds
    after the last scope is closed. -/
theorem kept_check {scans : List Scan} (h : (I.assertion 0).Kept (move.run (.ofScans scans))) :
    Assertion.Kept ⟨I.ended, I.stops⟩ (check.run (.ofScans scans)) := by
  rw [check, start, bind_assoc, run_bind]
  refine h.onward (fun _ _ => id) fun _ s hs => ?_
  rw [run_bind]
  refine (I.enters 0 _ hs).onward (fun _ _ => id) fun _ s₁ hs₁ => ?_
  rw [parse, run_bind]
  refine (keeps_program (n := 0) nestingBudget s₁ hs₁).onward (fun _ _ => id) fun _ s₂ hs₂ => ?_
  rw [run_bind, EStateM.run_get, bind_ok]
  cases s₂.look.isSome with
  | false => exact I.ends hs₂
  | true => exact I.failsSyntax _ hs₂

end LeveledInvariant

/-- An assertion that all operations of the parser keep. -/
structure ScopedInvariant extends Invariant where
  enters (hint : Option String) : toAssertion.Keeps (enterScope hint)
  leaves : toAssertion.Keeps leaveScope
  declares (name : String) (type : TypeName) : toAssertion.Keeps (declare name type.ty)

namespace ScopedInvariant

/-- The assertion is the same for all numbers of open scopes. -/
def toLeveled (I : ScopedInvariant) : LeveledInvariant where
  holds _ := I.holds
  ended := I.holds
  stops := I.stops
  moves _ := I.moves
  looksUp _ := I.looksUp
  declares _ := Invariant.keeps_decl I.declares
  enters _ hint s hs := I.enters hint s hs
  leaves _ s hs := I.leaves s hs
  ends {s} hs := I.leaves s hs
  failsSyntax := I.failsSyntax
  failsSemantic := I.failsSemantic
  failsTooDeep := I.failsTooDeep

/-- What holds after the first scan of a stream is kept by its check. -/
theorem kept_check {I : ScopedInvariant} {scans : List Scan}
    (h : I.Kept (move.run (.ofScans scans))) : I.Kept (check.run (.ofScans scans)) :=
  I.toLeveled.kept_check h

end ScopedInvariant

end Parsing

end MiniPascal
