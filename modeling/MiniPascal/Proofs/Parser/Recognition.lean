import MiniPascal.Parser.Statement
import MiniPascal.Proofs.Parser.Reading

/-!
# The procedures read their nonterminals

Every procedure of the parser reads the language of its nonterminal. As for the
procedures themselves, how nested parts are read is a hypothesis until the last step,
which is an induction on the budget of nesting (`reads_parenthesized`, `reads_body`).

* `reads_program`: what is read as a program is one, and a fault of syntax is found with
  the beginning of one behind the parser.
-/

namespace MiniPascal

open Computability Parsing

instance : Inhabited Ty := ⟨.int⟩

instance : Inhabited Token := ⟨.plain .symbol⟩

/-! ### The sets of kinds -/

/-- A kind begins a declaration if it names a type. -/
theorem Kind.declaredType?_eq_some_iff {kind : Kind} {ty : Ty} :
    kind.declaredType? = some ty ↔ ∃ t : TypeName, t.kind = kind ∧ t.ty = ty := by
  constructor
  · intro h
    cases kind <;> simp [declaredType?] at h <;> subst h
    exacts [⟨.int, rfl, rfl⟩, ⟨.float, rfl, rfl⟩, ⟨.char, rfl, rfl⟩]
  · rintro ⟨t, rfl, rfl⟩
    cases t <;> rfl

theorem Kind.constantType?_eq_some_iff {kind : Kind} {ty : Ty} :
    kind.constantType? = some ty ↔ ∃ c : Constant, c.kind = kind ∧ c.ty = ty := by
  constructor
  · intro h
    cases kind <;> simp [constantType?] at h <;> subst h
    exacts [⟨.num, rfl, rfl⟩, ⟨.real, rfl, rfl⟩, ⟨.charConst, rfl, rfl⟩]
  · rintro ⟨c, rfl, rfl⟩
    cases c <;> rfl

theorem Kind.isRelational_iff {kind : Kind} :
    kind.isRelational = true ↔ ∃ op : RelOp, op.kind = kind := by
  constructor
  · intro h
    cases kind <;> first | exact absurd h (by decide) | skip
    exacts [⟨.equal, rfl⟩, ⟨.notEqual, rfl⟩, ⟨.less, rfl⟩, ⟨.lessEqual, rfl⟩, ⟨.greater, rfl⟩,
      ⟨.greaterEqual, rfl⟩]
  · rintro ⟨op, rfl⟩
    cases op <;> rfl

theorem Kind.isAdditive_iff {kind : Kind} :
    kind.isAdditive = true ↔ ∃ op : AddOp, op.kind = kind := by
  constructor
  · intro h
    cases kind <;> first | exact absurd h (by decide) | skip
    exacts [⟨.plus, rfl⟩, ⟨.minus, rfl⟩, ⟨.or, rfl⟩]
  · rintro ⟨op, rfl⟩
    cases op <;> rfl

theorem Kind.isMultiplicative_iff {kind : Kind} :
    kind.isMultiplicative = true ↔ ∃ op : MulOp, op.kind = kind := by
  constructor
  · intro h
    cases kind <;> first | exact absurd h (by decide) | skip
    exacts [⟨.times, rfl⟩, ⟨.divide, rfl⟩, ⟨.and, rfl⟩]
  · rintro ⟨op, rfl⟩
    cases op <;> rfl

namespace Parsing

/-! ### Declarations -/

/-- The words that are the name of a type. -/
def typeLanguage : Language Terminal :=
  {w | ∃ t : TypeName, w = [.of t.kind]}

/-- The words of the names that follow the first one of a declaration. -/
def othersLanguage : Language Terminal :=
  {w | ∃ others, Decl.othersYield others = w}

/-- The words of lists of declarations, the empty one included. -/
def declsLanguage : Language Terminal :=
  {w | ∃ decls : List Decl, decls.flatMap Decl.yield = w}

theorem reads_typeSpec : Reads typeLanguage typeSpec where
  nonempty := ⟨_, .int, rfl⟩
  run s := by
    have hne : ∃ w, w ∈ typeLanguage := ⟨_, .int, rfl⟩
    simp only [typeSpec, run_bind, run_lookKind?, bind_ok]
    cases hty : (s.look.map Token.kind).bind Kind.declaredType? with
    | none => exact (reads_failSyntax hne).run s
    | some ty =>
      obtain ⟨kind, hkind, hty⟩ := Option.bind_eq_some_iff.1 hty
      obtain ⟨token, hlook, rfl⟩ := Option.map_eq_some_iff.1 hkind
      obtain ⟨t, ht, -⟩ := Kind.declaredType?_eq_some_iff.1 hty
      refine (readsFrom_move_bind hlook fun _ => reads_pure ty).mono ?_
      rintro _ ⟨_, rfl, _, rfl, rfl⟩
      exact ⟨t, by rw [Token.terminal_of_ne ht.symm (by cases t <;> decide)]; rfl⟩

theorem reads_declaredName (ty : Ty) : Reads nameLanguage (declaredName ty) := by
  have h := reads_expect_ident.bind fun token => reads_declare token.text ty
  rwa [mul_one] at h

/-- A comma and a name, any number of times, are the further names of a declaration. -/
theorem kstar_le_othersLanguage :
    ({[.of .comma]} * nameLanguage : Language Terminal)∗ ≤ othersLanguage := by
  refine kstar_le_of_mul_le_right ?_ ?_
  · rintro _ rfl
    exact ⟨[], rfl⟩
  · rintro _ ⟨_, ⟨_, rfl, _, ⟨lexeme, rfl⟩, rfl⟩, _, ⟨others, rfl⟩, rfl⟩
    exact ⟨lexeme :: others, rfl⟩

/-- A turn of a list of names: a comma and a name. -/
def identStep (ty : Ty) : Parsing Unit := do
  let _ ← expect .comma
  declaredName ty

theorem reads_identStep (ty : Ty) : Reads ({[.of .comma]} * nameLanguage) (identStep ty) :=
  (reads_expect .comma (by decide)).bind fun _ => reads_declaredName ty

theorem progresses_identStep (ty : Ty) :
    Progresses (· = .comma) fun (_ : Kind) (_ : Unit) => identStep ty :=
  .of_reads fun _ _ s _ _ => (reads_identStep ty).run s

theorem advances_identStep (ty : Ty) :
    Advances (· = .comma) fun (_ : Kind) (_ : Unit) => identStep ty :=
  (progresses_identStep ty).advances

theorem reads_identList (ty : Ty) : Reads (nameLanguage * othersLanguage) (identList ty) := by
  refine (reads_declaredName ty).bind fun _ => ?_
  exact (reads_whileLooking (fun _ _ s _ _ => (reads_identStep ty).run s) ()).mono
    kstar_le_othersLanguage

theorem reads_decl : Reads declLanguage decl := by
  have h := reads_typeSpec.bind fun ty =>
    (reads_expect .colon (by decide)).bind fun _ =>
      (reads_identList ty).bind fun _ =>
        (reads_expect .semicolon (by decide)).bind fun _ => reads_pure ()
  -- A word of the product is a word of each language in turn; together they are a tree's.
  refine h.mono ?_
  rintro _ ⟨_, ⟨type, rfl⟩, _, ⟨_, rfl, _, ⟨_, ⟨_, ⟨first, rfl⟩, _, ⟨others, rfl⟩, rfl⟩,
    _, ⟨_, rfl, _, rfl, rfl⟩, rfl⟩, rfl⟩, rfl⟩
  exact ⟨⟨type, first, others⟩, by simp [Decl.yield]⟩

theorem progresses_decl : Progresses Kind.beginsDecl fun (_ : Kind) (_ : Unit) => decl := by
  intro token a s b s' _ _ hrun
  have hreads := reads_decl.run s
  rw [hrun] at hreads
  exact hreads.passesAtLeast_one nil_notMem_declLanguage

theorem advances_decl : Advances Kind.beginsDecl fun (_ : Kind) (_ : Unit) => decl :=
  progresses_decl.advances

theorem kstar_declLanguage_le : declLanguage∗ ≤ declsLanguage := by
  refine kstar_le_of_mul_le_right ?_ ?_
  · rintro _ rfl
    exact ⟨[], rfl⟩
  · rintro _ ⟨_, ⟨d, rfl⟩, _, ⟨decls, rfl⟩, rfl⟩
    exact ⟨d :: decls, rfl⟩

theorem reads_declList : Reads declsLanguage declList := by
  refine ((reads_decl.bind fun _ => ?_).mono mul_kstar_le_kstar).mono kstar_declLanguage_le
  exact reads_whileLooking (fun _ _ s _ _ => reads_decl.run s) ()

theorem reads_optionalDecls : Reads declsLanguage optionalDecls where
  nonempty := ⟨_, [], rfl⟩
  run s := by
    simp only [optionalDecls, run_bind, run_looking, bind_ok]
    split
    · exact reads_declList.run s
    · refine ((reads_pure ()).mono ?_).run s
      rintro _ rfl
      exact ⟨[], rfl⟩

/-! ### Expressions -/

/-- The words that are one operator between factors. -/
def mulOpLanguage : Language Terminal :=
  {w | ∃ op : MulOp, w = [.of op.kind]}

/-- The words that are one operator between terms. -/
def addOpLanguage : Language Terminal :=
  {w | ∃ op : AddOp, w = [.of op.kind]}

/-- The words that are one relational operator. -/
def relOpLanguage : Language Terminal :=
  {w | ∃ op : RelOp, w = [.of op.kind]}

variable {inner : Parsing Ty}

/-- A constant is read where one is looked at. -/
theorem readsFrom_constant {s : Parser} {c : Constant} (h : s.look.map Token.kind = some c.kind) :
    ReadsFrom {[.of c.kind]} s (constant.run s) := by
  obtain ⟨token, hlook, hkind⟩ := Option.map_eq_some_iff.1 h
  have hty : token.kind.constantType? = some c.ty :=
    Kind.constantType?_eq_some_iff.2 ⟨c, hkind.symm, rfl⟩
  rw [constant, run_bind, run_lookKind?, bind_ok]
  simp only [hlook, Option.map_some, Option.bind_some, hty]
  refine (readsFrom_move_bind hlook fun _ => reads_pure c.ty).mono ?_
  rintro _ ⟨_, rfl, _, rfl, rfl⟩
  rw [Token.terminal_of_ne hkind (by cases c <;> decide)]
  rfl

theorem reads_factor (hinner : Reads (ExprForm.language .expression) inner) :
    Reads (ExprForm.language .factor) (factor inner) where
  nonempty := ⟨_, .constant .num, rfl⟩
  run s := by
    have hne : ∃ w, w ∈ ExprForm.language .factor := ⟨_, .constant .num, rfl⟩
    simp only [factor, run_bind, run_lookKind?, bind_ok]
    split
    · have h := reads_expect_ident.bind fun token => reads_lookup token.text
      refine (h.mono ?_).run s
      rintro _ ⟨_, ⟨lexeme, rfl⟩, _, rfl, rfl⟩
      exact ⟨.name lexeme, rfl⟩
    · have h := (reads_expect .leftParen (by decide)).bind fun _ => hinner.bind fun ty =>
        (reads_expect .rightParen (by decide)).bind fun _ => reads_pure ty
      refine (h.mono ?_).run s
      rintro _ ⟨_, rfl, _, ⟨_, ⟨e, rfl⟩, _, ⟨_, rfl, _, rfl, rfl⟩, rfl⟩, rfl⟩
      exact ⟨.parens e, rfl⟩
    · next kind _ _ hkind =>
      split
      · next hty =>
        obtain ⟨ty, hty⟩ := Option.isSome_iff_exists.1 hty
        obtain ⟨c, rfl, -⟩ := Kind.constantType?_eq_some_iff.1 hty
        refine (readsFrom_constant hkind).mono ?_
        rintro _ rfl
        exact ⟨.constant c, rfl⟩
      · exact (reads_failSyntax hne).run s
    · exact (reads_failSyntax hne).run s

theorem reads_factorA (hinner : Reads (ExprForm.language .expression) inner) :
    Reads (ExprForm.language .factorA) (factorA inner) where
  nonempty := ⟨_, .plain (.constant .num), rfl⟩
  run s := by
    have hfactor := reads_factor hinner
    simp only [factorA, run_bind, run_lookKind?, bind_ok]
    split
    · next hlook =>
      obtain ⟨token, hlook, hkind⟩ := Option.map_eq_some_iff.1 hlook
      have h := hfactor.bind fun ty => (reads_requireBool ty "operand of '!'").bind fun _ =>
        reads_pure Ty.bool
      refine (readsFrom_move_bind hlook fun _ => h).mono ?_
      rintro _ ⟨_, rfl, _, ⟨_, ⟨f, rfl⟩, _, ⟨_, rfl, _, rfl, rfl⟩, rfl⟩, rfl⟩
      exact ⟨.not f, by simp [Expr.yield, Token.terminal_of_ne hkind]⟩
    · next hlook =>
      obtain ⟨token, hlook, hkind⟩ := Option.map_eq_some_iff.1 hlook
      have h : Reads (ExprForm.language .factor * 1) (do
          let ty ← factor inner
          if ty.negatable then return ty else failSemantic (.negation ty)) :=
        hfactor.bind fun ty => by
          split
          · exact reads_pure ty
          · exact reads_failSemantic nonempty_one
      refine (readsFrom_move_bind hlook fun _ => h).mono ?_
      rintro _ ⟨_, rfl, _, ⟨_, ⟨f, rfl⟩, _, rfl, rfl⟩, rfl⟩
      exact ⟨.minus f, by simp [Expr.yield, Token.terminal_of_ne hkind]⟩
    · refine (hfactor.mono ?_).run s
      rintro _ ⟨f, rfl⟩
      exact ⟨.plain f, rfl⟩

section Chain

variable {isOp : Kind → Bool} {operand : Parsing Ty} {L O : Language Terminal}

/-- A turn of a chain: an operator and an operand. -/
def chainStep (operand : Parsing Ty) (op : Kind) (left : Ty) : Parsing Ty := do
  move
  binary op left (← operand)

theorem readsFrom_chainStep (h : Reads L operand) {s : Parser} {token : Token}
    (hlook : s.look = some token) (left : Ty) :
    ReadsFrom ({[token.terminal]} * L) s ((chainStep operand token.kind left).run s) := by
  have hstep := h.bind fun right => reads_binary token.kind left right
  rw [mul_one] at hstep
  exact readsFrom_move_bind hlook fun _ => hstep

theorem progresses_chainStep (h : Reads L operand) : Progresses isOp (chainStep operand) :=
  .of_reads fun _ left _ hlook _ => readsFrom_chainStep h hlook left

theorem advances_chainStep (h : Reads L operand) : Advances isOp (chainStep operand) :=
  (progresses_chainStep h).advances

/-- A chain reads operands with operators between them. -/
theorem reads_chain (hO : ∀ token : Token, isOp token.kind → [token.terminal] ∈ O)
    (h : Reads L operand) : Reads (L * (O * L)∗) (chain isOp operand) := by
  refine h.bind fun first => ?_
  refine reads_whileLooking (fun token left s hlook hop => ?_) first
  refine (readsFrom_chainStep h hlook left).mono ?_
  rintro _ ⟨_, rfl, _, hw, rfl⟩
  exact Language.append_mem_mul (hO token hop) hw

end Chain

theorem reads_term (hinner : Reads (ExprForm.language .expression) inner) :
    Reads (ExprForm.language .term) (term inner) := by
  have hO (token : Token) (h : token.kind.isMultiplicative) : [token.terminal] ∈ mulOpLanguage := by
    obtain ⟨op, hop⟩ := Kind.isMultiplicative_iff.1 h
    exact ⟨op, by rw [Token.terminal_of_ne hop.symm (by cases op <;> decide)]⟩
  refine (reads_chain hO (reads_factorA hinner)).mono (mul_kstar_le ?_ ?_)
  · rintro _ ⟨f, rfl⟩
    exact ⟨.factorA f, rfl⟩
  · rintro _ ⟨_, ⟨left, rfl⟩, _, ⟨_, ⟨op, rfl⟩, _, ⟨right, rfl⟩, rfl⟩, rfl⟩
    exact ⟨.mul left op right, rfl⟩

theorem reads_simpleExpr (hinner : Reads (ExprForm.language .expression) inner) :
    Reads (ExprForm.language .simpleExpr) (simpleExpr inner) := by
  have hO (token : Token) (h : token.kind.isAdditive) : [token.terminal] ∈ addOpLanguage := by
    obtain ⟨op, hop⟩ := Kind.isAdditive_iff.1 h
    exact ⟨op, by rw [Token.terminal_of_ne hop.symm (by cases op <;> decide)]⟩
  refine (reads_chain hO (reads_term hinner)).mono (mul_kstar_le ?_ ?_)
  · rintro _ ⟨t, rfl⟩
    exact ⟨.term t, rfl⟩
  · rintro _ ⟨_, ⟨left, rfl⟩, _, ⟨_, ⟨op, rfl⟩, _, ⟨right, rfl⟩, rfl⟩, rfl⟩
    exact ⟨.add left op right, rfl⟩

theorem reads_expression (hinner : Reads (ExprForm.language .expression) inner) :
    Reads (ExprForm.language .expression) (expression inner) := by
  have hsimple := reads_simpleExpr hinner
  -- What may follow the first operand is nothing, or an operator with another operand.
  have hrest (left : Ty) : Reads (1 + relOpLanguage * ExprForm.language .simpleExpr) (do
      if ← looking Kind.isRelational then
        move
        let right ← simpleExpr inner
        if left.comparable right then return Ty.bool else failSemantic (.relation left right)
      else return left) := by
    refine ⟨⟨[], .inl rfl⟩, fun s => ?_⟩
    simp only [run_bind, run_looking, bind_ok]
    split
    · next hlook =>
      obtain ⟨token, hlook, hop⟩ := looking_iff.1 hlook
      obtain ⟨op, hop⟩ := Kind.isRelational_iff.1 hop
      have h : Reads (ExprForm.language .simpleExpr * 1) (do
          let right ← simpleExpr inner
          if left.comparable right then return Ty.bool else failSemantic (.relation left right)) :=
        hsimple.bind fun right => by
          split
          · exact reads_pure _
          · exact reads_failSemantic nonempty_one
      refine (readsFrom_move_bind hlook fun _ => h).mono ?_
      rintro _ ⟨_, rfl, _, ⟨w, hw, _, rfl, rfl⟩, rfl⟩
      refine .inr ⟨_, ⟨op, rfl⟩, w, hw, ?_⟩
      simp [Token.terminal_of_ne hop.symm (by cases op <;> decide)]
    · exact ((reads_pure left).mono fun _ h => .inl h).run s
  refine (hsimple.bind hrest).mono ?_
  rintro _ ⟨_, ⟨left, rfl⟩, _, rfl | ⟨_, ⟨op, rfl⟩, _, ⟨right, rfl⟩, rfl⟩, rfl⟩
  · exact ⟨.simple left, by simp [Expr.yield]⟩
  · exact ⟨.relation left op right, rfl⟩

theorem reads_parenthesized (budget : Nat) :
    Reads (ExprForm.language .expression) (parenthesized budget) := by
  induction budget using parenthesized.induct with
  | case1 budget ih => exact reads_expression ih
  | case2 budget h =>
    -- Out of budget nothing is read, and no fault of syntax is found.
    have hne : ∃ w, w ∈ ExprForm.language .expression :=
      ⟨_, .simple (.term (.factorA (.plain (.constant .num)))), rfl⟩
    rw [parenthesized]
    · exact ⟨hne, fun _ => trivial⟩
    · exact h

/-! ### Statements -/

/-- The contracts of the nested parts of a statement. -/
structure NestedReads (nested : Nested) : Prop where
  inner : Reads (ExprForm.language .expression) nested.inner
  body (kind : BodyKind) : Reads (StmtForm.language .body) (nested.body kind)

/-- What may be written out. -/
def writableLanguage : Language Terminal :=
  {[.of .literal]} + ExprForm.language .simpleExpr

theorem reads_writable (hinner : Reads (ExprForm.language .expression) inner) :
    Reads writableLanguage (writable inner) where
  nonempty := ⟨_, .inl rfl⟩
  run s := by
    simp only [writable, run_bind, run_looking, bind_ok]
    split
    · have h := (reads_expect .literal (by decide)).bind fun _ => reads_pure ()
      rw [mul_one] at h
      exact (h.mono fun _ hw => .inl hw).run s
    · have h := (reads_simpleExpr hinner).bind fun _ => reads_pure ()
      rw [mul_one] at h
      exact (h.mono fun _ hw => .inr hw).run s

theorem reads_assignStmt (hinner : Reads (ExprForm.language .expression) inner) :
    Reads (StmtForm.language .stmt) (assignStmt inner) := by
  have h := reads_expect_ident.bind fun token => (reads_lookup token.text).bind fun target =>
    (reads_expect .assign (by decide)).bind fun _ =>
      (reads_simpleExpr hinner).bind fun value =>
        (show Reads 1 (if value = target then pure () else
            failSemantic (.assignment token.text target value)) by
          split
          · exact reads_pure _
          · exact reads_failSemantic nonempty_one)
  refine h.mono ?_
  rintro _ ⟨_, ⟨target, rfl⟩, _, ⟨_, rfl, _, ⟨_, rfl, _, ⟨_, ⟨value, rfl⟩, _, rfl, rfl⟩, rfl⟩, rfl⟩,
    rfl⟩
  exact ⟨.assign target value, by simp [Stmt.yield]⟩

variable {nested : Nested}

theorem reads_ifStmt (hnested : NestedReads nested) :
    Reads (StmtForm.language .stmt) (ifStmt nested) := by
  have hend : Reads {[.of .kwEnd]} (do let _ ← expect .kwEnd) := by
    have h := (reads_expect .kwEnd (by decide)).bind fun _ => reads_pure ()
    rwa [mul_one] at h
  have helse : Reads ({[.of .kwEnd]} + {[.of .kwElse]} * (StmtForm.language .body * {[.of .kwEnd]}))
      (do
        if ← looking (· = .kwElse) then
          let _ ← expect .kwElse
          nested.body .ifElse
        let _ ← expect .kwEnd) := by
    refine ⟨⟨_, .inl rfl⟩, fun s => ?_⟩
    simp only [run_bind, run_looking, bind_ok]
    split
    · have h := (reads_expect .kwElse (by decide)).bind fun _ =>
        (hnested.body .ifElse).bind fun _ => hend
      exact (h.mono fun _ hw => .inr hw).run s
    · exact (hend.mono fun _ hw => .inl hw).run s
  have h := (reads_expect .kwIf (by decide)).bind fun _ =>
    (reads_expression hnested.inner).bind fun ty =>
      (reads_requireBool ty "'if' condition").bind fun _ =>
        (reads_expect .kwThen (by decide)).bind fun _ => (hnested.body .ifThen).bind fun _ => helse
  refine h.mono ?_
  rintro _ ⟨_, rfl, _, ⟨_, ⟨c, rfl⟩, _, ⟨_, rfl, _, ⟨_, rfl, _, ⟨_, ⟨body, rfl⟩, _, rfl | ⟨_, rfl,
    _, ⟨_, ⟨other, rfl⟩, _, rfl, rfl⟩, rfl⟩, rfl⟩, rfl⟩, rfl⟩, rfl⟩, rfl⟩
  · exact ⟨.ifThen c body, by simp [Stmt.yield]⟩
  · exact ⟨.ifElse c body other, by simp [Stmt.yield]⟩

theorem reads_whileStmt (hnested : NestedReads nested) :
    Reads (StmtForm.language .stmt) (whileStmt nested) := by
  have h := (reads_expect .kwWhile (by decide)).bind fun _ =>
    (reads_expression hnested.inner).bind fun ty =>
      (reads_requireBool ty "'while' condition").bind fun _ =>
        (reads_expect .kwDo (by decide)).bind fun _ => (hnested.body .whileBody).bind fun _ =>
          (reads_expect .kwEnd (by decide)).bind fun _ => reads_pure ()
  refine h.mono ?_
  rintro _ ⟨_, rfl, _, ⟨_, ⟨c, rfl⟩, _, ⟨_, rfl, _, ⟨_, rfl, _, ⟨_, ⟨body, rfl⟩, _, ⟨_, rfl, _, rfl,
    rfl⟩, rfl⟩, rfl⟩, rfl⟩, rfl⟩, rfl⟩
  exact ⟨.whileDo c body, by simp [Stmt.yield]⟩

theorem reads_repeatStmt (hnested : NestedReads nested) :
    Reads (StmtForm.language .stmt) (repeatStmt nested) := by
  have h := (reads_expect .kwRepeat (by decide)).bind fun _ =>
    (hnested.body .repeatBody).bind fun _ => (reads_expect .kwUntil (by decide)).bind fun _ =>
      (reads_expression hnested.inner).bind fun ty => reads_requireBool ty "'until' condition"
  refine h.mono ?_
  rintro _ ⟨_, rfl, _, ⟨_, ⟨body, rfl⟩, _, ⟨_, rfl, _, ⟨_, ⟨c, rfl⟩, _, rfl, rfl⟩, rfl⟩, rfl⟩, rfl⟩
  exact ⟨.repeatUntil body c, by simp [Stmt.yield]⟩

theorem reads_readStmt : Reads (StmtForm.language .stmt) readStmt := by
  have h := (reads_expect .kwIn (by decide)).bind fun _ =>
    (reads_expect .leftParen (by decide)).bind fun _ => reads_expect_ident.bind fun token =>
      (reads_lookup token.text).bind fun _ =>
        (reads_expect .rightParen (by decide)).bind fun _ => reads_pure ()
  refine h.mono ?_
  rintro _ ⟨_, rfl, _, ⟨_, rfl, _, ⟨_, ⟨lexeme, rfl⟩, _, ⟨_, rfl, _, ⟨_, rfl, _, rfl, rfl⟩, rfl⟩,
    rfl⟩, rfl⟩, rfl⟩
  exact ⟨.read lexeme, by simp [Stmt.yield]⟩

theorem reads_writeStmt (hinner : Reads (ExprForm.language .expression) inner) :
    Reads (StmtForm.language .stmt) (writeStmt inner) := by
  have h := (reads_expect .kwOut (by decide)).bind fun _ =>
    (reads_expect .leftParen (by decide)).bind fun _ => (reads_writable hinner).bind fun _ =>
      (reads_expect .rightParen (by decide)).bind fun _ => reads_pure ()
  refine h.mono ?_
  rintro _ ⟨_, rfl, _, ⟨_, rfl, _, ⟨_, rfl | ⟨value, rfl⟩, _, ⟨_, rfl, _, rfl, rfl⟩, rfl⟩, rfl⟩,
    rfl⟩
  · exact ⟨.writeLiteral, by simp [Stmt.yield]⟩
  · exact ⟨.write value, by simp [Stmt.yield]⟩

theorem reads_stmt (hnested : NestedReads nested) :
    Reads (StmtForm.language .stmt) (stmt nested) where
  nonempty := ⟨_, .writeLiteral, rfl⟩
  run s := by
    have hne : ∃ w, w ∈ StmtForm.language .stmt := ⟨_, .writeLiteral, rfl⟩
    simp only [stmt, run_bind, run_lookKind?, bind_ok]
    split
    · exact (reads_failSyntax hne).run s
    · exact (reads_assignStmt hnested.inner).run s
    · exact (reads_ifStmt hnested).run s
    · exact (reads_whileStmt hnested).run s
    · exact (reads_repeatStmt hnested).run s
    · exact reads_readStmt.run s
    · exact (reads_writeStmt hnested.inner).run s
    · exact (reads_failSyntax hne).run s

/-- Statements with a semicolon before each are what follows the first one of a list. -/
theorem mul_kstar_le_stmtList : StmtForm.language .stmt *
    ({[.of .semicolon]} * StmtForm.language .stmt)∗ ≤ StmtForm.language .stmtList := by
  -- The star groups the statements from the left, and the trees of lists from the right.
  have htail : ({[.of .semicolon]} * StmtForm.language .stmt : Language Terminal)∗ ≤
      1 + {[.of .semicolon]} * StmtForm.language .stmtList := by
    refine kstar_le_of_mul_le_right (fun _ h => .inl h) ?_
    rintro _ ⟨_, ⟨_, rfl, _, ⟨s, rfl⟩, rfl⟩, _, rfl | ⟨_, rfl, _, ⟨rest, rfl⟩, rfl⟩, rfl⟩
    · exact .inr ⟨_, rfl, _, ⟨.last s, rfl⟩, by simp [Stmt.yield]⟩
    · exact .inr ⟨_, rfl, _, ⟨.cons s rest, rfl⟩, by simp [Stmt.yield]⟩
  refine (mul_le_mul_right htail _).trans ?_
  rintro _ ⟨_, ⟨s, rfl⟩, _, rfl | ⟨_, rfl, _, ⟨rest, rfl⟩, rfl⟩, rfl⟩
  · exact ⟨.last s, by simp [Stmt.yield]⟩
  · exact ⟨.cons s rest, rfl⟩

/-- A turn of a list of statements: a semicolon and a statement. -/
def stmtStep (nested : Nested) : Parsing Unit := do
  let _ ← expect .semicolon
  stmt nested

theorem stmtList_eq (nested : Nested) : stmtList nested = (do
    stmt nested
    whileLooking (· = .semicolon) () fun _ _ => stmtStep nested) := rfl

theorem reads_stmtStep (hnested : NestedReads nested) :
    Reads ({[.of .semicolon]} * StmtForm.language .stmt) (stmtStep nested) :=
  (reads_expect .semicolon (by decide)).bind fun _ => reads_stmt hnested

theorem progresses_stmtStep (hnested : NestedReads nested) :
    Progresses (· = .semicolon) fun (_ : Kind) (_ : Unit) => stmtStep nested :=
  .of_reads fun _ _ s _ _ => (reads_stmtStep hnested).run s

theorem advances_stmtStep (hnested : NestedReads nested) :
    Advances (· = .semicolon) fun (_ : Kind) (_ : Unit) => stmtStep nested :=
  (progresses_stmtStep hnested).advances

theorem reads_stmtList (hnested : NestedReads nested) :
    Reads (StmtForm.language .stmtList) (stmtList nested) := by
  rw [stmtList_eq]
  refine ((reads_stmt hnested).bind fun _ => ?_).mono mul_kstar_le_stmtList
  exact reads_whileLooking (fun _ _ s _ _ => (reads_stmtStep hnested).run s) ()

theorem reads_block (hnested : NestedReads nested) (hint : Option String) :
    Reads (StmtForm.language .body) (block nested hint) := by
  have h := (reads_enterScope hint).bind fun _ => reads_optionalDecls.bind fun _ =>
    (reads_stmtList hnested).bind fun _ => reads_leaveScope
  refine h.mono ?_
  rintro _ ⟨_, rfl, _, ⟨_, ⟨decls, rfl⟩, _, ⟨_, ⟨stmts, rfl⟩, _, rfl, rfl⟩, rfl⟩, rfl⟩
  exact ⟨.block decls stmts, by simp [Stmt.yield]⟩

theorem reads_body (budget : Nat) (kind : BodyKind) :
    Reads (StmtForm.language .body) (body budget kind) := by
  induction budget using body.induct generalizing kind with
  | case1 budget ih => exact reads_block ⟨reads_parenthesized budget, ih⟩ _
  | case2 budget h =>
    have hne : ∃ w, w ∈ StmtForm.language .body := ⟨_, .block [] (.last .writeLiteral), rfl⟩
    rw [body]
    · exact ⟨hne, fun _ => trivial⟩
    · exact h

/-- The nested parts within any budget are read as they should be. -/
theorem nestedReads (budget : Nat) : NestedReads (Parsing.nested budget) :=
  ⟨reads_parenthesized budget, reads_body budget⟩

theorem reads_program (hnested : NestedReads nested) :
    Reads programLanguage (program nested) := by
  have h := (reads_expect .kwProgram (by decide)).bind fun _ => reads_optionalDecls.bind fun _ =>
    (reads_expect .kwBegin (by decide)).bind fun _ =>
      (reads_stmtList hnested).bind fun _ =>
        (reads_expect .kwEnd (by decide)).bind fun _ => reads_pure ()
  refine h.mono ?_
  rintro _ ⟨_, rfl, _, ⟨_, ⟨decls, rfl⟩, _, ⟨_, rfl, _, ⟨_, ⟨stmts, rfl⟩, _, ⟨_, rfl, _, rfl, rfl⟩,
    rfl⟩, rfl⟩, rfl⟩, rfl⟩
  exact ⟨⟨decls, stmts⟩, by simp [Program.yield]⟩

theorem reads_parse (hnested : NestedReads nested) : Reads programLanguage (parse nested) := by
  have hend : Reads 1 (do
      if (← get).look.isSome then failSyntax .endOfText
      leaveScope) := by
    refine ⟨nonempty_one, fun s => ?_⟩
    simp only [run_bind, EStateM.run_get, bind_ok]
    split
    · exact (reads_failSyntax nonempty_one).run s
    · exact reads_leaveScope.run s
  have h := (reads_program hnested).bind fun _ => hend
  rwa [mul_one] at h

/-- A parser that has read a program to its end is at the end of the text. -/
theorem look_of_run_parse {nested : Nested} {s s' : Parser}
    (h : (parse nested).run s = .ok () s') : s'.look = none := by
  obtain ⟨-, s₁, -, h⟩ := exists_of_run_bind h
  simp only [run_bind, EStateM.run_get, bind_ok] at h
  split at h
  · cases h
  · next hlook => rw [look_of_run_onSymbols h, Option.not_isSome_iff_eq_none.1 hlook]

end Parsing

end MiniPascal
