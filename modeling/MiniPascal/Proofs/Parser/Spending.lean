import MiniPascal.Compile
import MiniPascal.Proofs.Nesting
import MiniPascal.Proofs.Parser.Recognition

/-!
# What procedures spend of the budget

A procedure that is given a budget for what it reads gives up where the word that it has moved
past exceeds the budget, and nowhere else (`Parsing.Spends`). So the whole check gives up for
nesting exactly if it comes to a place where the tokens up to there exceed the budget of a
program.

As for what is read (`Parsing.Reads`), what a sequence of procedures spends is put together one
by one (`Spends.bind`).
-/

namespace MiniPascal

namespace Parsing

variable {α β : Type}

/-- A result of a run from `s`, before which `x` is left: if it succeeds `y` is left, and if
    it is given up for nesting, nothing. -/
def SpendsFrom (x y : Option Allowance) (s : Parser) : Result α → Prop
  | .ok _ s' => ∃ u, s.Passes u s' ∧ spend x (u.map Token.terminal) = y
  | .error .tooDeep s' => ∃ u, s.Passes u s' ∧ spend x (u.map Token.terminal) = none
  | .error _ _ => True

/-- Where `x` is left the procedure `m` leaves `y`, and gives up if nothing is left. -/
def Spends (x y : Option Allowance) (m : Parsing α) : Prop :=
  ∀ s, SpendsFrom x y s (m.run s)

/-- What a procedure spends where it looks at a token of a kind. -/
def SpendsAt (kind : Kind) (x y : Option Allowance) (m : Parsing α) : Prop :=
  ∀ s, s.look.map Token.kind = some kind → SpendsFrom x y s (m.run s)

variable {x y z : Option Allowance} {s : Parser} {kind : Kind}

theorem Spends.at {m : Parsing α} (h : Spends x y m) : SpendsAt kind x y m :=
  fun s _ => h s

theorem SpendsFrom.bind {r : Result α} {f : α → Parsing β} (h : SpendsFrom x y s r)
    (hf : ∀ a, Spends y z (f a)) : SpendsFrom x z s (Result.bind r f) := by
  match r, h with
  | .ok a s₁, ⟨u, hu, hy⟩ =>
    rw [bind_ok]
    match hr : (f a).run s₁, hf a s₁ with
    | .ok _ _, ⟨v, hv, hz⟩ =>
      exact ⟨u ++ v, hu.trans hv, by rw [List.map_append, spend_append, hy, hz]⟩
    | .error .tooDeep _, ⟨v, hv, hnone⟩ =>
      exact ⟨u ++ v, hu.trans hv, by rw [List.map_append, spend_append, hy, hnone]⟩
    | .error (.fault _) _, _ => trivial
    | .error (.abort _) _, _ => trivial
  | .error .tooDeep _, h => exact h
  | .error (.fault _) _, _ => trivial
  | .error (.abort _) _, _ => trivial

theorem Spends.bind {m : Parsing α} {f : α → Parsing β} (h : Spends x y m)
    (hf : ∀ a, Spends y z (f a)) : Spends x z (m >>= f) := by
  intro s
  rw [run_bind]
  exact (h s).bind hf

theorem SpendsAt.bind {m : Parsing α} {f : α → Parsing β} (h : SpendsAt kind x y m)
    (hf : ∀ a, Spends y z (f a)) : SpendsAt kind x z (m >>= f) := by
  intro s hlook
  rw [run_bind]
  exact (h s hlook).bind hf

theorem spends_pure (a : α) : Spends x x (pure a) :=
  fun s => ⟨[], .refl s, rfl⟩

theorem spends_failSyntax (expectation : Expectation) :
    Spends x y (failSyntax expectation : Parsing α) :=
  fun _ => trivial

theorem spends_failSemantic (cause : SemanticCause) :
    Spends x y (failSemantic cause : Parsing α) :=
  fun _ => trivial

/-- A procedure gives up at once where nothing is left. -/
theorem spends_tooDeep : Spends none y (throw .tooDeep : Parsing α) :=
  fun s => ⟨[], .refl s, rfl⟩

theorem spends_lookKind?_bind {f : Option Kind → Parsing α} (hnone : Spends x y (f none))
    (hsome : ∀ kind, SpendsAt kind x y (f (some kind))) : Spends x y (lookKind? >>= f) := by
  intro s
  rw [run_bind, run_lookKind?, bind_ok]
  cases hlook : s.look.map Token.kind with
  | none => exact hnone s
  | some kind => exact hsome kind s hlook

theorem spends_looking_bind {p : Kind → Bool} {f : Bool → Parsing α}
    (hfalse : Spends x y (f false))
    (htrue : ∀ kind, p kind = true → SpendsAt kind x y (f true)) :
    Spends x y (looking p >>= f) := by
  intro s
  rw [run_bind, run_looking, bind_ok]
  cases hlooking : (s.look.map Token.kind).any p with
  | false => exact hfalse s
  | true =>
    obtain ⟨token, hlook, hp⟩ := looking_iff.1 hlooking
    exact htrue token.kind hp s (congrArg _ hlook)

/-! ### Tokens -/

theorem spendsAt_move (h : spend x [.of kind] = y) : SpendsAt kind x y move := by
  intro s hlook
  obtain ⟨token, htoken, rfl⟩ := Option.map_eq_some_iff.1 hlook
  have hword : spend x [token.terminal] = spend x [.of token.kind] := by
    simp only [spend, List.foldl_cons, List.foldl_nil, Token.kind_terminal]
    rfl
  have hreads := readsFrom_move htoken
  match hpending : s.pending with
  | [] =>
    rw [run_move_nil hpending] at hreads ⊢
    obtain ⟨u, hu, hmem⟩ := hreads
    exact ⟨u, hu, by rw [hmem, hword, h]⟩
  | ⟨.ok next, lexer⟩ :: pending =>
    rw [run_move_ok hpending] at hreads ⊢
    obtain ⟨u, hu, hmem⟩ := hreads
    exact ⟨u, hu, by rw [hmem, hword, h]⟩
  | ⟨.error failure, lexer⟩ :: pending =>
    rw [run_move_error hpending]
    cases failure <;> trivial

theorem spends_expect (kind : Kind) (h : spend x [.of kind] = y) : Spends x y (expect kind) := by
  intro s
  by_cases hlook : s.look.map Token.kind = some kind
  · obtain ⟨token, htoken, rfl⟩ := Option.map_eq_some_iff.1 hlook
    rw [run_expect htoken]
    exact (spendsAt_move h s hlook).bind fun _ => spends_pure token
  · rw [run_expect_of_ne hlook]
    trivial

theorem spends_onSymbols {operation : SymbolTable → SymbolTable.Response α}
    (h : ∀ table, scannedTokens (operation table).log = []) :
    Spends x x (onSymbols operation) := by
  intro s
  have hreads := (reads_onSymbols h).run s
  cases hr : (operation s.symbols).result with
  | ok a =>
    rw [run_onSymbols_ok hr] at hreads ⊢
    obtain ⟨u, hu, hword⟩ := hreads
    exact ⟨u, hu, by rw [hword]; rfl⟩
  | error refusal =>
    rw [run_onSymbols_error hr]
    cases refusal <;> trivial

theorem spends_enterScope (hint : Option String) : Spends x x (enterScope hint) :=
  (spends_onSymbols fun t => scannedTokens_enter t hint).bind fun _ => spends_pure ()

theorem spends_leaveScope : Spends x x leaveScope :=
  spends_onSymbols scannedTokens_leave

theorem spends_lookup (name : String) : Spends x x (lookup name) := by
  refine (spends_onSymbols fun t => scannedTokens_lookup t name).bind fun entry => ?_
  cases entry with
  | none => exact spends_failSemantic _
  | some entry => exact spends_pure _

theorem spends_declare (name : String) (ty : Ty) : Spends x x (declare name ty) := by
  intro s
  rw [run_declare]
  refine SpendsFrom.bind ?_ fun _ => spends_pure ()
  exact spends_onSymbols (fun t => scannedTokens_declare t name ty _) s

/-- A loop leaves what it finds if every turn does. -/
theorem spends_whileLooking {p : Kind → Bool} {step : Kind → α → Parsing α}
    (h : ∀ kind a, p kind = true → SpendsAt kind x x (step kind a)) (a : α) :
    Spends x x (whileLooking p a step) := by
  have hrepeat (fuel : Nat) (a : α) : Spends x x (repeatWhile p step fuel a) := by
    induction fuel generalizing a with
    | zero => exact spends_pure a
    | succ fuel ih =>
      refine spends_lookKind?_bind (spends_pure a) fun kind => ?_
      simp only
      split
      · next hp => exact (h kind a hp).bind ih
      · exact (spends_pure a).at
  exact fun s => hrepeat _ a s

variable {left : Nat} {outer : List Nat}

/-! ### Declarations -/

theorem spends_typeSpec : Spends (within left outer) (within left outer) typeSpec := by
  refine spends_lookKind?_bind (spends_failSyntax _) fun kind => ?_
  simp only [Option.bind_some]
  split
  · next ty hty =>
    obtain ⟨type, rfl, -⟩ := Kind.declaredType?_eq_some_iff.1 hty
    refine (spendsAt_move ?_).bind fun _ => spends_pure ty
    cases type <;> rfl
  · exact (spends_failSyntax _).at

theorem spends_declaredName (ty : Ty) :
    Spends (within left outer) (within left outer) (declaredName ty) :=
  (spends_expect .ident rfl).bind fun token => spends_declare token.text ty

theorem spends_identList (ty : Ty) :
    Spends (within left outer) (within left outer) (identList ty) := by
  have hcomma : Spends (within left outer) (within left outer) (expect .comma) :=
    spends_expect .comma rfl
  refine (spends_declaredName ty).bind fun _ => spends_whileLooking (fun _ _ _ => ?_) ()
  exact (hcomma.bind fun _ => spends_declaredName ty).at

theorem spends_decl : Spends (within left outer) (within left outer) decl := by
  refine spends_typeSpec.bind fun ty => (spends_expect .colon rfl).bind fun _ => ?_
  refine (spends_identList ty).bind fun _ => ?_
  exact (spends_expect .semicolon rfl).bind fun _ => spends_pure ()

theorem spends_declList : Spends (within left outer) (within left outer) declList :=
  spends_decl.bind fun _ => spends_whileLooking (fun _ _ _ => spends_decl.at) ()

theorem spends_optionalDecls : Spends (within left outer) (within left outer) optionalDecls :=
  spends_looking_bind (spends_pure ()) fun _ _ => spends_declList.at

/-! ### Expressions -/

theorem spends_binary (op : Kind) (l r : Ty) : Spends x x (binary op l r) := by
  rw [binary]
  split
  · exact spends_pure _
  · simp only [arithmetic]
    split
    · exact spends_failSemantic _
    · exact spends_pure _

theorem spends_requireBool (ty : Ty) (what : String) : Spends x x (requireBool ty what) := by
  rw [requireBool]
  split
  · exact spends_pure _
  · exact spends_failSemantic _

theorem spends_constant : Spends (within left outer) (within left outer) constant := by
  refine spends_lookKind?_bind (spends_failSyntax _) fun kind => ?_
  simp only [Option.bind_some]
  split
  · next ty hty =>
    obtain ⟨c, rfl, -⟩ := Kind.constantType?_eq_some_iff.1 hty
    refine (spendsAt_move ?_).bind fun _ => spends_pure ty
    cases c <;> rfl
  · exact (spends_failSyntax _).at

/-- What is read within parentheses, which have been opened for their cost. -/
def SpendsWithin (cost left : Nat) (m : Parsing α) : Prop :=
  ∀ outer, Spends (opened cost left outer) (within (left - cost) (left :: outer)) m

variable {inner : Parsing Ty}

theorem spends_factor (hinner : SpendsWithin 5 left inner) :
    Spends (within left outer) (within left outer) (factor inner) := by
  refine spends_lookKind?_bind (spends_failSyntax _) fun kind => Spends.at ?_
  split
  · exact (spends_expect .ident rfl).bind fun token => spends_lookup token.text
  · refine (spends_expect .leftParen rfl).bind fun _ => (hinner outer).bind fun ty => ?_
    exact (spends_expect .rightParen rfl).bind fun _ => spends_pure ty
  · split
    · exact spends_constant
    · exact spends_failSyntax _
  · exact spends_failSyntax _

theorem spends_factorA (hinner : SpendsWithin 5 left inner) :
    Spends (within left outer) (within left outer) (factorA inner) := by
  refine spends_lookKind?_bind (spends_factor hinner) fun kind => ?_
  split
  · next hkind =>
    obtain rfl := Option.some.inj hkind
    refine (spendsAt_move rfl).bind fun _ => (spends_factor hinner).bind fun ty => ?_
    exact (spends_requireBool ty _).bind fun _ => spends_pure _
  · next hkind =>
    obtain rfl := Option.some.inj hkind
    refine (spendsAt_move rfl).bind fun _ => (spends_factor hinner).bind fun ty => ?_
    split
    · exact spends_pure ty
    · exact spends_failSemantic _
  · exact (spends_factor hinner).at

theorem spends_chain {isOp : Kind → Bool} {operand : Parsing Ty}
    (hop : ∀ kind, isOp kind = true → spend (within left outer) [.of kind] = within left outer)
    (h : Spends (within left outer) (within left outer) operand) :
    Spends (within left outer) (within left outer) (chain isOp operand) := by
  refine h.bind fun first => spends_whileLooking (fun op l hkind => ?_) first
  exact (spendsAt_move (hop op hkind)).bind fun _ => h.bind fun r => spends_binary op l r

theorem spends_term (hinner : SpendsWithin 5 left inner) :
    Spends (within left outer) (within left outer) (term inner) := by
  refine spends_chain (fun kind h => ?_) (spends_factorA hinner)
  obtain ⟨op, rfl⟩ := Kind.isMultiplicative_iff.1 h
  cases op <;> rfl

theorem spends_simpleExpr (hinner : SpendsWithin 5 left inner) :
    Spends (within left outer) (within left outer) (simpleExpr inner) := by
  refine spends_chain (fun kind h => ?_) (spends_term hinner)
  obtain ⟨op, rfl⟩ := Kind.isAdditive_iff.1 h
  cases op <;> rfl

theorem spends_expression (hinner : SpendsWithin 5 left inner) :
    Spends (within left outer) (within left outer) (expression inner) := by
  refine (spends_simpleExpr hinner).bind fun l => ?_
  refine spends_looking_bind (spends_pure l) fun kind h => ?_
  have hkind : spend (within left outer) [.of kind] = within left outer := by
    obtain ⟨op, rfl⟩ := Kind.isRelational_iff.1 h
    cases op <;> rfl
  refine (spendsAt_move hkind).bind fun _ => (spends_simpleExpr hinner).bind fun r => ?_
  split
  · exact spends_pure _
  · exact spends_failSemantic _

theorem opened_of_lt {cost : Nat} (h : left < cost) : opened cost left outer = none :=
  if_neg (Nat.not_le.2 h)

theorem spends_parenthesized (budget : Nat) : SpendsWithin 5 budget (parenthesized budget) := by
  induction budget using parenthesized.induct with
  | case1 budget ih => exact fun outer => spends_expression ih
  | case2 budget h =>
    intro outer
    rw [parenthesized, opened_of_lt]
    · exact spends_tooDeep
    · by_contra hle
      exact h (budget - 5) (by omega)
    · exact h

/-! ### Statements -/

/-- What the nested parts of a statement spend of so much. -/
structure NestedSpends (left : Nat) (nested : Nested) : Prop where
  inner : SpendsWithin 5 left nested.inner
  body (kind : BodyKind) : SpendsWithin 4 left (nested.body kind)

variable {nested : Nested}

theorem spends_assignStmt (hinner : SpendsWithin 5 left inner) :
    Spends (within left outer) (within left outer) (assignStmt inner) := by
  refine (spends_expect .ident rfl).bind fun token => ?_
  refine (spends_lookup token.text).bind fun target => (spends_expect .assign rfl).bind fun _ => ?_
  refine (spends_simpleExpr hinner).bind fun value => ?_
  split
  · exact spends_pure _
  · exact spends_failSemantic _

theorem spends_readStmt : Spends (within left outer) (within left outer) readStmt := by
  refine (spends_expect .kwIn rfl).bind fun _ => (spends_expect .leftParen rfl).bind fun _ => ?_
  refine (spends_expect .ident rfl).bind fun token => (spends_lookup token.text).bind fun _ => ?_
  exact (spends_expect .rightParen rfl).bind fun _ => spends_pure ()

theorem spends_writable (hinner : SpendsWithin 5 left inner) :
    Spends (within left outer) (within left outer) (writable inner) := by
  refine spends_looking_bind ((spends_simpleExpr hinner).bind fun _ => spends_pure ()) ?_
  exact fun _ _ => ((spends_expect .literal rfl).bind fun _ => spends_pure ()).at

theorem spends_writeStmt (hinner : SpendsWithin 5 left inner) :
    Spends (within left outer) (within left outer) (writeStmt inner) := by
  refine (spends_expect .kwOut rfl).bind fun _ => (spends_expect .leftParen rfl).bind fun _ => ?_
  refine (@spends_writable left (left :: outer) inner hinner).bind fun _ => ?_
  exact (spends_expect .rightParen rfl).bind fun _ => spends_pure ()

section Nested

variable (hnested : NestedSpends left nested)
include hnested

theorem spends_ifStmt : Spends (within left outer) (within left outer) (ifStmt nested) := by
  have hend : Spends (within (left - 4) (left :: outer)) (within left outer)
      (do let _ ← expect .kwEnd) := (spends_expect .kwEnd rfl).bind fun _ => spends_pure ()
  refine (spends_expect .kwIf rfl).bind fun _ => ?_
  refine (spends_expression hnested.inner).bind fun ty => (spends_requireBool ty _).bind fun _ => ?_
  refine (spends_expect .kwThen rfl).bind fun _ => (hnested.body .ifThen outer).bind fun _ => ?_
  refine spends_looking_bind hend fun _ _ => Spends.at ?_
  exact (spends_expect .kwElse rfl).bind fun _ => (hnested.body .ifElse outer).bind fun _ => hend

theorem spends_whileStmt : Spends (within left outer) (within left outer) (whileStmt nested) := by
  refine (spends_expect .kwWhile rfl).bind fun _ => ?_
  refine (spends_expression hnested.inner).bind fun ty => (spends_requireBool ty _).bind fun _ => ?_
  refine (spends_expect .kwDo rfl).bind fun _ => (hnested.body .whileBody outer).bind fun _ => ?_
  exact (spends_expect .kwEnd rfl).bind fun _ => spends_pure ()

theorem spends_repeatStmt :
    Spends (within left outer) (within left outer) (repeatStmt nested) := by
  refine (spends_expect .kwRepeat rfl).bind fun _ => ?_
  refine (hnested.body .repeatBody outer).bind fun _ => ?_
  refine (spends_expect .kwUntil rfl).bind fun _ => ?_
  exact (spends_expression hnested.inner).bind fun ty => spends_requireBool ty _

theorem spends_stmt : Spends (within left outer) (within left outer) (stmt nested) := by
  refine spends_lookKind?_bind (spends_failSyntax _) fun kind => Spends.at ?_
  split
  · exact spends_failSyntax _
  · exact spends_assignStmt hnested.inner
  · exact spends_ifStmt hnested
  · exact spends_whileStmt hnested
  · exact spends_repeatStmt hnested
  · exact spends_readStmt
  · exact spends_writeStmt hnested.inner
  · exact spends_failSyntax _

theorem spends_stmtList : Spends (within left outer) (within left outer) (stmtList nested) := by
  have hsemicolon : Spends (within left outer) (within left outer) (expect .semicolon) :=
    spends_expect .semicolon rfl
  refine (spends_stmt hnested).bind fun _ => spends_whileLooking (fun _ _ _ => ?_) ()
  exact (hsemicolon.bind fun _ => spends_stmt hnested).at

theorem spends_block (hint : Option String) :
    Spends (within left outer) (within left outer) (block nested hint) :=
  (spends_enterScope hint).bind fun _ => spends_optionalDecls.bind fun _ =>
    (spends_stmtList hnested).bind fun _ => spends_leaveScope

end Nested

theorem spends_body (budget : Nat) (kind : BodyKind) :
    SpendsWithin 4 budget (body budget kind) := by
  induction budget using body.induct generalizing kind with
  | case1 budget ih => exact fun outer => spends_block ⟨spends_parenthesized budget, ih⟩ _
  | case2 budget h =>
    intro outer
    rw [body, opened_of_lt]
    · exact spends_tooDeep
    · by_contra hle
      exact h (budget - 4) (by omega)
    · exact h

/-- What the nested parts within a budget spend of it. -/
theorem nestedSpends (budget : Nat) : NestedSpends budget (Parsing.nested budget) :=
  ⟨spends_parenthesized budget, spends_body budget⟩

/-- A program spends of its budget what its statements do; the word that ends it closes
    nothing. -/
theorem spends_program (budget : Nat) :
    Spends (within budget []) (within budget []) (program (Parsing.nested budget)) := by
  have hlist : Spends (within budget []) (within budget []) (stmtList (Parsing.nested budget)) :=
    spends_stmtList (nestedSpends budget)
  refine (spends_expect .kwProgram rfl).bind fun _ => spends_optionalDecls.bind fun _ => ?_
  refine (spends_expect .kwBegin rfl).bind fun _ => hlist.bind fun _ => ?_
  exact (spends_expect .kwEnd rfl).bind fun _ => spends_pure ()

theorem spends_parse (budget : Nat) :
    Spends (within budget []) (within budget []) (parse (Parsing.nested budget)) := by
  refine (spends_program budget).bind fun _ s => ?_
  rw [run_bind, EStateM.run_get, bind_ok]
  cases s.look.isSome with
  | false => exact spends_leaveScope s
  | true => trivial

end Parsing

end MiniPascal
