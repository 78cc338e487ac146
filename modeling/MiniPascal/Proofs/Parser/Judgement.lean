import MiniPascal.Proofs.Parser.Judging

/-!
# The procedures judge their nonterminals

Every procedure of the parser judges the trees of its nonterminal, by induction on the
trees. A loop takes as much as it can, so what follows the word of a tree must not go on
with it: no operator after an expression, and no semicolon after a list of statements.

A chain of operands is read in a loop that keeps the type of what it has read, while its
tree is grouped from the left. Its judgement is therefore stated with what the loop does
after the word (`judges_expr`), and a chain that ends there is a case of it
(`judges_closed`).

* `judges_stmt`, `judges_program`: statements and programs are judged by the rules.
-/

namespace MiniPascal

open Parsing

/-! ### Words at the beginning of tokens -/

/-- Tokens whose word begins with a terminal begin with a token for it. -/
theorem Token.map_terminal_eq_cons {u : List Token} {t : Terminal} {w : List Terminal}
    (h : u.map terminal = [t] ++ w) : ∃ token u', u = token :: u' ∧ token.terminal = t ∧
      u'.map terminal = w := by
  obtain ⟨token, u', rfl, ht, hw⟩ := List.map_eq_cons_iff.1 h
  exact ⟨token, u', rfl, ht, hw⟩

/-- No kind that satisfies `p` comes next. -/
def Stops (p : Kind → Bool) (rest : List Token) : Prop :=
  (rest.head?.map Token.kind).any p = false

theorem stops_cons {p : Kind → Bool} {token : Token} {rest : List Token} :
    Stops p (token :: rest) ↔ p token.kind = false :=
  Iff.rfl

theorem stops_of_terminal {p : Kind → Bool} {token : Token} {kind : Kind} {rest : List Token}
    (h : token.terminal = .of kind) (hp : p kind = false) : Stops p (token :: rest) := by
  rw [stops_cons, Token.kind_of_terminal_of h, hp]

theorem stops_never (rest : List Token) : Stops (fun _ => false) rest := by
  cases rest <;> rfl

theorem Stops.mono {p q : Kind → Bool} {rest : List Token} (h : Stops p rest)
    (hpq : ∀ kind, q kind = true → p kind = true) : Stops q rest := by
  cases rest with
  | nil => rfl
  | cons token rest =>
    rw [stops_cons] at h ⊢
    exact Bool.eq_false_iff.2 fun hq => Bool.eq_false_iff.1 h (hpq _ hq)

/-- The operators. -/
def Kind.isOperator (kind : Kind) : Bool :=
  kind.isMultiplicative || kind.isAdditive || kind.isRelational

/-- The procedure that reads an expression of a form. -/
def ExprForm.procedure (inner : Parsing Ty) : ExprForm → Parsing Ty
  | .factor => Parsing.factor inner
  | .factorA => Parsing.factorA inner
  | .term => Parsing.term inner
  | .simpleExpr => Parsing.simpleExpr inner
  | .expression => Parsing.expression inner

/-- What a procedure goes on with after a part of an expression of its form. -/
def ExprForm.continuation (inner : Parsing Ty) : ExprForm → Ty → Parsing Ty
  | .factor | .factorA | .expression => fun ty => return ty
  | .term => fun ty =>
    whileLooking Kind.isMultiplicative ty (chainStep (Parsing.factorA inner))
  | .simpleExpr => fun ty => whileLooking Kind.isAdditive ty (chainStep (Parsing.term inner))

/-- The operators that go on with an expression of a form. -/
def ExprForm.operators : ExprForm → Kind → Bool
  | .factor | .factorA => fun _ => false
  | .term => Kind.isMultiplicative
  | .simpleExpr => fun kind => kind.isMultiplicative || kind.isAdditive
  | .expression => Kind.isOperator

/-- The operators that go on with a part of an expression of a form. -/
def ExprForm.partOperators : ExprForm → Kind → Bool
  | .factor | .factorA | .term => fun _ => false
  | .simpleExpr => Kind.isMultiplicative
  | .expression => Kind.isOperator

/-- The procedure that reads a statement of a form, bodies being of the given kind. -/
def StmtForm.procedure (nested : Nested) (kind : BodyKind) : StmtForm → Parsing Unit
  | .stmt => Parsing.stmt nested
  | .stmtList => Parsing.stmtList nested
  | .body => nested.body kind

/-- The kinds that go on with a statement of a form. -/
def StmtForm.goesOn : StmtForm → Kind → Bool
  | .stmt => Kind.isOperator
  | .stmtList | .body => fun kind => kind.isOperator || kind = .semicolon

theorem ExprForm.isOperator_of_operators {form : ExprForm} {kind : Kind}
    (h : form.operators kind = true) : kind.isOperator = true := by
  revert h
  cases form <;> cases kind <;> decide

namespace Parsing

variable {Γ Γ' : Env} {tokens rest rest' u v : List Token} {inner : Parsing Ty}

/-! ### Loops -/

variable {α : Type} {p : Kind → Bool} {step : Kind → α → Parsing α}

theorem judges_whileLooking_of_stops (h : Stops p tokens) (a : α) :
    Judges Γ tokens (whileLooking p a step) (some a) Γ tokens := by
  intro s hs
  rw [whileLooking_run_of_not (by rw [hs.look]; exact h)]
  exact ⟨hs, rfl⟩

/-- A loop goes on before a token of the right kind. -/
theorem Judges.whileLooking {token : Token} {a : α} {x : Option α} (hstep : Advances p step)
    (hp : p token.kind = true)
    (h : Judges Γ (token :: tokens)
      (step token.kind a >>= fun b => Parsing.whileLooking p b step) x Γ' rest) :
    Judges Γ (token :: tokens) (Parsing.whileLooking p a step) x Γ' rest := by
  intro s hs
  rw [whileLooking_run hstep hs.look hp, ← run_bind]
  exact h s hs

/-! ### Expressions -/

/-- An expression of a form is read and judged, whatever comes of what follows it. -/
def JudgesExpr (inner : Parsing Ty) {form : ExprForm} (e : Expr form) : Prop :=
  ∀ {Γ Γ' : Env} {u v rest : List Token} {g : Ty → Option Ty}, Γ ≠ [] →
    u.map Token.terminal = e.yield → Stops form.partOperators v →
    (∀ ty, Judges Γ v (form.continuation inner ty) (g ty) Γ' rest) →
    Judges Γ (u ++ v) (form.procedure inner) ((e.type? Γ).bind g) Γ' rest

/-- An expression that nothing goes on with is read to its end. -/
theorem judges_closed {form : ExprForm} {e : Expr form} (he : JudgesExpr inner e) (hΓ : Γ ≠ [])
    (hu : u.map Token.terminal = e.yield) (hv : Stops form.operators v) :
    Judges Γ (u ++ v) (form.procedure inner) (e.type? Γ) Γ v := by
  have hinside : Stops form.partOperators v := hv.mono fun kind => by
    cases form <;> cases kind <;> decide
  -- A loop that finds no operator after the expression ends with the type it has.
  have hresume (ty : Ty) : Judges Γ v (form.continuation inner ty) (some ty) Γ v := by
    cases form with
    | factor | factorA | expression => exact judges_pure ty
    | term => exact judges_whileLooking_of_stops hv ty
    | simpleExpr =>
      refine judges_whileLooking_of_stops (hv.mono fun kind h => ?_) ty
      exact Bool.or_eq_true_iff.2 (.inr h)
  have h := he hΓ hu hinside hresume
  rwa [Option.bind_fun_some] at h

/-- An expression read to its end may be followed by an answer that is given at once. -/
theorem Judges.resume_pure {m : Parsing Ty} {x : Option Ty} {g : Ty → Option Ty}
    (h : Judges Γ tokens m x Γ v) (hg : ∀ ty, Judges Γ v (pure ty) (g ty) Γ' rest) :
    Judges Γ tokens m (x.bind g) Γ' rest := by
  have h' := h.bind fun ty _ => hg ty
  rwa [bind_pure] at h'

section Chain

variable {isOp : Kind → Bool} {operand : Parsing Ty} {token : Token} {x : Option Ty}

/-- A turn of a chain joins what was read before it with an operand. -/
theorem judges_chainStep (h : Judges Γ tokens operand x Γ rest) (op : Kind) (left : Ty) :
    Judges Γ (token :: tokens) (chainStep operand op left) (x.bind (join? op left)) Γ rest :=
  (judges_move token).next <| h.bind fun right _ => judges_binary op left right

/-- A chain takes another operand, whatever comes of what follows it. -/
theorem judges_chain_next (hstep : Advances isOp (chainStep operand))
    (hop : isOp token.kind = true) (h : Judges Γ tokens operand x Γ rest) {g : Ty → Option Ty}
    (hg : ∀ ty, Judges Γ rest (whileLooking isOp ty (chainStep operand)) (g ty) Γ' rest')
    (left : Ty) :
    Judges Γ (token :: tokens) (whileLooking isOp left (chainStep operand))
      ((x.bind (join? token.kind left)).bind g) Γ' rest' :=
  .whileLooking hstep hop ((judges_chainStep h token.kind left).bind fun ty _ => hg ty)

end Chain

/-- No expression begins with a literal. -/
theorem head_expr {form : ExprForm} {e : Expr form} (hu : u.map Token.terminal = e.yield) :
    ∃ token u', u = token :: u' ∧ token.kind ≠ .literal := by
  induction e generalizing u with
  | name lexeme =>
    obtain ⟨token, rfl, ht⟩ := List.map_eq_singleton_iff.1 hu
    exact ⟨token, [], rfl, by simp [(Token.eq_of_terminal_name ht).1]⟩
  | constant c =>
    obtain ⟨token, rfl, ht⟩ := List.map_eq_singleton_iff.1 hu
    exact ⟨token, [], rfl, by cases c <;> simp [Token.kind_of_terminal_of ht, Constant.kind]⟩
  | parens | not | minus =>
    obtain ⟨token, u, rfl, ht, -⟩ := Token.map_terminal_eq_cons hu
    exact ⟨token, u, rfl, by simp [Token.kind_of_terminal_of ht]⟩
  | plain _ ih | factorA _ ih | term _ ih | simple _ ih => exact ih hu
  | mul _ _ _ ih | add _ _ _ ih | relation _ _ _ ih =>
    obtain ⟨l, w, rfl, hl, -⟩ := List.map_eq_append_iff.1 hu
    obtain ⟨token, u, rfl, ht⟩ := ih hl
    exact ⟨token, u ++ w, rfl, ht⟩

/-- A factor that begins with a name looks it up. -/
theorem judges_factor_name (lexeme : String) : JudgesExpr inner (.name lexeme) := by
  intro Γ Γ' u v rest g hΓ hu _ hg
  obtain ⟨token, rfl, ht⟩ := List.map_eq_singleton_iff.1 hu
  obtain ⟨hkind, htext⟩ := Token.eq_of_terminal_name ht
  refine Judges.resume_pure (.lookKind? ?_) hg
  simp only [List.cons_append, List.nil_append, List.head?_cons, Option.map_some, hkind]
  refine (judges_expect hkind).next ?_
  rw [htext]
  exact judges_lookup lexeme hΓ

theorem judges_constant {token : Token} {c : Constant} (h : token.kind = c.kind) :
    Judges Γ (token :: rest) constant (some c.ty) Γ rest := by
  refine .lookKind? ?_
  have hty : token.kind.constantType? = some c.ty :=
    Kind.constantType?_eq_some_iff.2 ⟨c, h.symm, rfl⟩
  simp only [List.head?_cons, Option.map_some, Option.bind_some, hty]
  exact (judges_move token).next (judges_pure c.ty)

theorem judges_factor_constant (c : Constant) : JudgesExpr inner (.constant c) := by
  intro Γ Γ' u v rest g hΓ hu _ hg
  obtain ⟨token, rfl, ht⟩ := List.map_eq_singleton_iff.1 hu
  have hkind := Token.kind_of_terminal_of ht
  refine Judges.resume_pure (.lookKind? ?_) hg
  simp only [List.cons_append, List.nil_append, List.head?_cons, Option.map_some, hkind]
  cases c with
  | num | real | charConst => exact judges_constant hkind

/-- A factor within parentheses is what they hold. -/
theorem judges_factor_parens {e : Expr .expression}
    (h : ∀ {Γ : Env} {u v : List Token}, Γ ≠ [] → u.map Token.terminal = e.yield →
      Stops Kind.isOperator v → Judges Γ (u ++ v) inner (e.type? Γ) Γ v) :
    JudgesExpr inner (.parens e) := by
  intro Γ Γ' u v rest g hΓ hu _ hg
  obtain ⟨left, u, rfl, hleft, hu⟩ := Token.map_terminal_eq_cons hu
  obtain ⟨u, w, rfl, he, hw⟩ := List.map_eq_append_iff.1 hu
  obtain ⟨right, rfl, hright⟩ := List.map_eq_singleton_iff.1 hw
  have hleft := Token.kind_of_terminal_of hleft
  have hright := Token.kind_of_terminal_of hright
  have hstops : Stops Kind.isOperator (right :: v) := by
    rw [stops_cons, hright]
    rfl
  refine Judges.resume_pure (.lookKind? ?_) hg
  simp only [List.cons_append, List.append_assoc, List.nil_append, List.head?_cons,
    Option.map_some, hleft]
  refine (judges_expect hleft).next ?_
  exact (h hΓ he hstops).keep fun ty => (judges_expect hright).next (judges_pure ty)

/-- A factor begins with a token that is no sign. -/
theorem head_factor {f : Expr .factor} (hu : u.map Token.terminal = f.yield) :
    ∃ token u', u = token :: u' ∧ token.kind ≠ .not ∧ token.kind ≠ .minus := by
  cases f with
  | name lexeme =>
    obtain ⟨token, rfl, ht⟩ := List.map_eq_singleton_iff.1 hu
    have hkind := (Token.eq_of_terminal_name ht).1
    exact ⟨token, [], rfl, by simp [hkind], by simp [hkind]⟩
  | constant c =>
    obtain ⟨token, rfl, ht⟩ := List.map_eq_singleton_iff.1 hu
    have hkind := Token.kind_of_terminal_of ht
    exact ⟨token, [], rfl, by cases c <;> simp [hkind, Constant.kind],
      by cases c <;> simp [hkind, Constant.kind]⟩
  | parens e =>
    obtain ⟨token, u, rfl, ht, -⟩ := Token.map_terminal_eq_cons hu
    have hkind := Token.kind_of_terminal_of ht
    exact ⟨token, u, rfl, by simp [hkind], by simp [hkind]⟩

theorem judges_factorA_plain {f : Expr .factor} (hf : JudgesExpr inner f) :
    JudgesExpr inner (.plain f) := by
  intro Γ Γ' u v rest g hΓ hu _ hg
  have hfactor : Judges Γ (u ++ v) (factor inner) (f.type? Γ) Γ v :=
    judges_closed hf hΓ hu (stops_never v)
  obtain ⟨token, u, rfl, hnot, hminus⟩ := head_factor hu
  refine Judges.resume_pure (.lookKind? ?_) hg
  simp only [List.cons_append, List.head?_cons, Option.map_some]
  split
  · next hlook => exact absurd (Option.some.inj hlook) hnot
  · next hlook => exact absurd (Option.some.inj hlook) hminus
  · exact hfactor

theorem judges_factorA_not {f : Expr .factor} (hf : JudgesExpr inner f) :
    JudgesExpr inner (.not f) := by
  intro Γ Γ' u v rest g hΓ hu _ hg
  obtain ⟨token, u, rfl, ht, hu⟩ := Token.map_terminal_eq_cons hu
  have hkind := Token.kind_of_terminal_of ht
  have hfactor : Judges Γ (u ++ v) (factor inner) (f.type? Γ) Γ v :=
    judges_closed hf hΓ hu (stops_never v)
  refine Judges.resume_pure (.lookKind? ?_) hg
  simp only [List.cons_append, List.head?_cons, Option.map_some, hkind]
  refine (judges_move token).next (hfactor.bind fun ty _ => ?_)
  rw [← allowed_bind]
  exact (judges_requireBool ty _).bind fun _ _ => judges_pure Ty.bool

theorem judges_factorA_minus {f : Expr .factor} (hf : JudgesExpr inner f) :
    JudgesExpr inner (.minus f) := by
  intro Γ Γ' u v rest g hΓ hu _ hg
  obtain ⟨token, u, rfl, ht, hu⟩ := Token.map_terminal_eq_cons hu
  have hkind := Token.kind_of_terminal_of ht
  have hfactor : Judges Γ (u ++ v) (factor inner) (f.type? Γ) Γ v :=
    judges_closed hf hΓ hu (stops_never v)
  refine Judges.resume_pure (.lookKind? ?_) hg
  simp only [List.cons_append, List.head?_cons, Option.map_some, hkind]
  refine (judges_move token).next (hfactor.bind fun ty _ => ?_)
  split
  · exact judges_pure ty
  · exact judges_failSemantic _

/-- The judgement of operands joined by an operator, from that of the operands. -/
theorem judges_term_mul {left : Expr .term} {op : MulOp} {right : Expr .factorA}
    (hinner : Reads (ExprForm.language .expression) inner)
    (hleft : JudgesExpr inner left) (hright : JudgesExpr inner right) :
    JudgesExpr inner (.mul left op right) := by
  intro Γ Γ' u v rest g hΓ hu _ hg
  obtain ⟨l, w, rfl, hl, hw⟩ := List.map_eq_append_iff.1 hu
  obtain ⟨token, r, rfl, ht, hr⟩ := Token.map_terminal_eq_cons hw
  have hkind := Token.kind_of_terminal_of ht
  have hop : token.kind.isMultiplicative := Kind.isMultiplicative_iff.2 ⟨op, hkind.symm⟩
  have hoperand : Judges Γ (r ++ v) (factorA inner) (right.type? Γ) Γ v :=
    judges_closed hright hΓ hr (stops_never v)
  -- The left operand is read by the loop that goes on to this operator, so its judgement is
  -- taken with the rest of the loop after it.
  have hnext := judges_chain_next (advances_chainStep (reads_factorA hinner)) hop hoperand hg
  have h := hleft hΓ hl (stops_never _) hnext
  rw [hkind, ← Option.bind_assoc] at h
  rwa [List.append_assoc, List.cons_append]

theorem judges_simpleExpr_add {left : Expr .simpleExpr} {op : AddOp} {right : Expr .term}
    (hinner : Reads (ExprForm.language .expression) inner)
    (hleft : JudgesExpr inner left) (hright : JudgesExpr inner right) :
    JudgesExpr inner (.add left op right) := by
  intro Γ Γ' u v rest g hΓ hu hv hg
  obtain ⟨l, w, rfl, hl, hw⟩ := List.map_eq_append_iff.1 hu
  obtain ⟨token, r, rfl, ht, hr⟩ := Token.map_terminal_eq_cons hw
  have hkind := Token.kind_of_terminal_of ht
  have hop : token.kind.isAdditive := Kind.isAdditive_iff.2 ⟨op, hkind.symm⟩
  have hoperand : Judges Γ (r ++ v) (term inner) (right.type? Γ) Γ v :=
    judges_closed hright hΓ hr hv
  have hnext := judges_chain_next (advances_chainStep (reads_term hinner)) hop hoperand hg
  have hstops : Stops Kind.isMultiplicative (token :: (r ++ v)) := by
    rw [stops_cons, hkind]
    cases op <;> rfl
  have h := hleft hΓ hl hstops hnext
  rw [hkind, ← Option.bind_assoc] at h
  rwa [List.append_assoc, List.cons_append]

theorem judges_expression_simple {e : Expr .simpleExpr} (he : JudgesExpr inner e) :
    JudgesExpr inner (.simple e) := by
  intro Γ Γ' u v rest g hΓ hu hv hg
  have hsimple : Judges Γ (u ++ v) (simpleExpr inner) (e.type? Γ) Γ v :=
    judges_closed he hΓ hu (hv.mono fun _ => ExprForm.isOperator_of_operators)
  have hstops : Stops Kind.isRelational v :=
    hv.mono fun _ h => Bool.or_eq_true_iff.2 (.inr h)
  refine Judges.resume_pure ?_ hg
  refine hsimple.keep fun ty => .looking ?_
  rw [show (v.head?.map Token.kind).any Kind.isRelational = false from hstops]
  exact judges_pure ty

theorem judges_expression_relation {left right : Expr .simpleExpr} {op : RelOp}
    (hleft : JudgesExpr inner left) (hright : JudgesExpr inner right) :
    JudgesExpr inner (.relation left op right) := by
  intro Γ Γ' u v rest g hΓ hu hv hg
  obtain ⟨l, w, rfl, hl, hw⟩ := List.map_eq_append_iff.1 hu
  obtain ⟨token, r, rfl, ht, hr⟩ := Token.map_terminal_eq_cons hw
  have hkind := Token.kind_of_terminal_of ht
  have hstops : Stops (ExprForm.operators .simpleExpr) (token :: (r ++ v)) := by
    rw [stops_cons, hkind]
    cases op <;> rfl
  have hfirst : Judges Γ (l ++ token :: (r ++ v)) (simpleExpr inner) (left.type? Γ) Γ _ :=
    judges_closed hleft hΓ hl hstops
  have hsecond : Judges Γ (r ++ v) (simpleExpr inner) (right.type? Γ) Γ v :=
    judges_closed hright hΓ hr (hv.mono fun _ => ExprForm.isOperator_of_operators)
  have hrel : token.kind.isRelational = true := Kind.isRelational_iff.2 ⟨op, hkind.symm⟩
  rw [List.append_assoc, List.cons_append]
  refine Judges.resume_pure (hfirst.bind fun ty _ => .looking ?_) hg
  simp only [List.head?_cons, Option.map_some, Option.any_some, hrel, if_true]
  refine (judges_move token).next (hsecond.bind fun ty' _ => ?_)
  split
  · exact judges_pure Ty.bool
  · exact judges_failSemantic _

/-- Every expression is judged by the rules. -/
theorem judges_expr {form : ExprForm} (e : Expr form) (budget : Nat) :
    JudgesExpr (parenthesized budget) e := by
  -- Parentheses leave less of the budget, so the induction is for all of them.
  induction e generalizing budget with
  | name lexeme => exact judges_factor_name lexeme
  | constant c => exact judges_factor_constant c
  | parens e ih =>
    refine judges_factor_parens fun {Γ u v} hΓ hu hv => ?_
    unfold parenthesized
    split
    · exact judges_closed (ih _) hΓ hu hv
    · exact judges_tooDeep
  | plain f ih => exact judges_factorA_plain (ih budget)
  | not f ih => exact judges_factorA_not (ih budget)
  | minus f ih => exact judges_factorA_minus (ih budget)
  | factorA f ih =>
    intro Γ Γ' u v rest g hΓ hu _ hg
    exact (judges_closed (ih budget) hΓ hu (stops_never v)).bind fun ty _ => hg ty
  | mul left op right ihl ihr =>
    exact judges_term_mul (reads_parenthesized budget) (ihl budget) (ihr budget)
  | term t ih =>
    intro Γ Γ' u v rest g hΓ hu hv hg
    exact (judges_closed (ih budget) hΓ hu hv).bind fun ty _ => hg ty
  | add left op right ihl ihr =>
    exact judges_simpleExpr_add (reads_parenthesized budget) (ihl budget) (ihr budget)
  | simple e ih => exact judges_expression_simple (ih budget)
  | relation left op right ihl ihr => exact judges_expression_relation (ihl budget) (ihr budget)

theorem judges_simpleExpr (e : Expr .simpleExpr) (budget : Nat) (hΓ : Γ ≠ [])
    (hu : u.map Token.terminal = e.yield) (hv : Stops Kind.isOperator v) :
    Judges Γ (u ++ v) (simpleExpr (parenthesized budget)) (e.type? Γ) Γ v :=
  judges_closed (judges_expr e budget) hΓ hu (hv.mono fun _ => ExprForm.isOperator_of_operators)

theorem judges_expression (e : Expr .expression) (budget : Nat) (hΓ : Γ ≠ [])
    (hu : u.map Token.terminal = e.yield) (hv : Stops Kind.isOperator v) :
    Judges Γ (u ++ v) (expression (parenthesized budget)) (e.type? Γ) Γ v :=
  judges_closed (judges_expr e budget) hΓ hu hv

/-! ### Declarations -/

/-- What becomes of names declared after those of a block. -/
def declares (block bindings : Block) : Option Unit :=
  allowed (block ++ bindings).names.Nodup

theorem declares_nil {block : Block} (h : block.names.Nodup) : declares block [] = some () := by
  rwa [declares, allowed_eq_some_iff, List.append_nil]

/-- Names are declared one after another. -/
theorem declares_append (block bindings others : Block) : declares block (bindings ++ others) =
    (declares block bindings).bind fun _ => declares (block ++ bindings) others := by
  rw [declares, declares, declares, ← allowed_and, ← List.append_assoc]
  congr 1
  refine propext ⟨fun h => ⟨?_, h⟩, And.right⟩
  rw [Block.names, List.map_append] at h
  exact h.of_append_left

theorem declares_cons (block : Block) (binding : String × Ty) (bindings : Block) :
    declares block (binding :: bindings) =
      (declares block [binding]).bind fun _ => declares (block ++ [binding]) bindings :=
  declares_append block [binding] bindings

theorem declares_singleton {block : Block} (h : block.names.Nodup) (name : String) (ty : Ty) :
    declares block [(name, ty)] = allowed (name ∉ block.names) := by
  rw [declares]
  congr 1
  rw [Block.names, List.map_append, List.map_singleton, List.nodup_append_comm]
  exact propext (List.nodup_cons.trans (and_iff_left h))

theorem judges_typeSpec {token : Token} {t : TypeName} (h : token.kind = t.kind) :
    Judges Γ (token :: rest) typeSpec (some t.ty) Γ rest := by
  refine .lookKind? ?_
  have hty : token.kind.declaredType? = some t.ty :=
    Kind.declaredType?_eq_some_iff.2 ⟨t, h.symm, rfl⟩
  simp only [List.head?_cons, Option.map_some, Option.bind_some, hty]
  exact (judges_move token).next (judges_pure t.ty)

theorem judges_declaredName {block : Block} (hblock : block.names.Nodup) {token : Token}
    {lexeme : String} (h : token.terminal = .name lexeme) (ty : Ty) :
    Judges (block :: Γ) (token :: rest) (declaredName ty) (declares block [(lexeme, ty)])
      ((block ++ [(lexeme, ty)]) :: Γ) rest := by
  obtain ⟨hkind, rfl⟩ := Token.eq_of_terminal_name h
  rw [declares_singleton hblock]
  exact (judges_expect hkind).next (judges_declare block token.text ty)

/-- The names that follow the first one of a declaration. -/
theorem judges_others {others : List String} {ty : Ty} {block : Block}
    (hblock : block.names.Nodup) (hu : u.map Token.terminal = Decl.othersYield others)
    (hv : Stops (· = .comma) v) :
    Judges (block :: Γ) (u ++ v) (whileLooking (· = .comma) () fun _ _ => identStep ty)
      (declares block (others.map fun name => (name, ty)))
      ((block ++ others.map fun name => (name, ty)) :: Γ) v := by
  -- The block grows with every name, so the induction is for all blocks.
  induction others generalizing block u with
  | nil =>
    obtain rfl := List.map_eq_nil_iff.1 hu
    rw [List.map_nil, declares_nil hblock, List.append_nil]
    exact judges_whileLooking_of_stops hv ()
  | cons lexeme others ih =>
    obtain ⟨comma, u, rfl, hcomma, hu⟩ := List.map_eq_cons_iff.1 hu
    obtain ⟨name, u, rfl, hname, hu⟩ := List.map_eq_cons_iff.1 hu
    have hcomma := Token.kind_of_terminal_of hcomma
    have hstep : Judges (block :: Γ) (comma :: name :: (u ++ v)) (identStep ty)
        (declares block [(lexeme, ty)]) ((block ++ [(lexeme, ty)]) :: Γ) (u ++ v) :=
      (judges_expect hcomma).next (judges_declaredName hblock hname ty)
    rw [List.map_cons, List.append_cons block, declares_cons]
    refine .whileLooking (advances_identStep ty) (decide_eq_true hcomma) ?_
    exact hstep.bind fun _ h => ih (allowed_eq_some_iff.1 h) hu

/-- A declaration declares its names. -/
theorem judges_decl (d : Decl) {block : Block} (hblock : block.names.Nodup)
    (hu : u.map Token.terminal = d.yield) :
    Judges (block :: Γ) (u ++ v) decl (declares block d.bindings)
      ((block ++ d.bindings) :: Γ) v := by
  obtain ⟨type, u, rfl, htype, hu⟩ := Token.map_terminal_eq_cons hu
  obtain ⟨colon, u, rfl, hcolon, hu⟩ := Token.map_terminal_eq_cons hu
  obtain ⟨names, w, rfl, hnames, hw⟩ := List.map_eq_append_iff.1 hu
  obtain ⟨semicolon, rfl, hsemicolon⟩ := List.map_eq_singleton_iff.1 hw
  obtain ⟨first, others, rfl, hfirst, hothers⟩ := Token.map_terminal_eq_cons hnames
  have hsemicolon := Token.kind_of_terminal_of hsemicolon
  have hstops : Stops (· = .comma) (semicolon :: v) := by
    rw [stops_cons, hsemicolon]
    rfl
  have hnames : Judges (block :: Γ) (first :: (others ++ semicolon :: v)) (identList d.type.ty)
      (declares block d.bindings) ((block ++ d.bindings) :: Γ) (semicolon :: v) := by
    rw [Decl.bindings, Decl.names, List.map_cons, List.append_cons block, declares_cons]
    exact (judges_declaredName hblock hfirst d.type.ty).bind fun _ h =>
      judges_others (allowed_eq_some_iff.1 h) hothers hstops
  simp only [List.cons_append, List.append_assoc, List.nil_append]
  refine (judges_typeSpec (Token.kind_of_terminal_of htype)).next ?_
  refine (judges_expect (Token.kind_of_terminal_of hcolon)).next ?_
  exact hnames.keep fun _ => (judges_expect hsemicolon).next (judges_pure ())

/-- No declaration comes next after those of a list. -/
theorem judges_decls {decls : List Decl} {block : Block} (hblock : block.names.Nodup)
    (hu : u.map Token.terminal = decls.flatMap Decl.yield) (hv : Stops Kind.beginsDecl v) :
    Judges (block :: Γ) (u ++ v) (whileLooking Kind.beginsDecl () fun _ _ => decl)
      (declares block (declBindings decls)) ((block ++ declBindings decls) :: Γ) v := by
  induction decls generalizing block u with
  | nil =>
    obtain rfl := List.map_eq_nil_iff.1 hu
    rw [declBindings, List.flatMap_nil, declares_nil hblock, List.append_nil]
    exact judges_whileLooking_of_stops hv ()
  | cons d decls ih =>
    obtain ⟨w, u', rfl, hw, hu'⟩ := List.map_eq_append_iff.1 hu
    obtain ⟨token, w', rfl, htoken, -⟩ := Token.map_terminal_eq_cons (t := .of d.type.kind) hw
    have hbegins : Kind.beginsDecl token.kind = true := by
      rw [Token.kind_of_terminal_of htoken]
      cases d.type <;> rfl
    rw [declBindings, List.flatMap_cons, declares_append, ← List.append_assoc, List.append_assoc]
    refine .whileLooking advances_decl hbegins ?_
    exact (judges_decl d hblock hw).bind fun _ h => ih (allowed_eq_some_iff.1 h) hu'

/-- Declarations, if any, are read in a loop. -/
theorem run_optionalDecls (s : Parser) : optionalDecls.run s =
    (whileLooking Kind.beginsDecl () fun _ _ => decl).run s := by
  rw [optionalDecls, run_bind, run_looking, bind_ok]
  cases hlooking : (s.look.map Token.kind).any Kind.beginsDecl with
  | false => rw [whileLooking_run_of_not hlooking]; rfl
  | true =>
    obtain ⟨token, hlook, hbegins⟩ := looking_iff.1 hlooking
    rw [whileLooking_run advances_decl hlook hbegins, ← run_bind]
    rfl

theorem judges_optionalDecls {decls : List Decl} (Γ : Env)
    (hu : u.map Token.terminal = decls.flatMap Decl.yield) (hv : Stops Kind.beginsDecl v) :
    Judges ([] :: Γ) (u ++ v) optionalDecls (allowed (NoneTwice decls))
      (declBindings decls :: Γ) v := by
  intro s hs
  have hnil : (Block.names []).Nodup := List.nodup_nil
  rw [run_optionalDecls]
  exact judges_decls hnil hu hv s hs

/-! ### Statements -/

theorem bind_allowed_bool (x : Option Ty) :
    (x.bind fun ty => allowed (ty = .bool)) = allowed (x = some .bool) := by
  cases x <;> simp [allowed]

/-- A condition has to be logical. -/
theorem judges_condition (c : Expr .expression) (budget : Nat) (what : String) (hΓ : Γ ≠ [])
    (hu : u.map Token.terminal = c.yield) (hv : Stops Kind.isOperator v) {f : Unit → Parsing α}
    {x : Option α} (hf : Judges Γ v (f ()) x Γ' rest) :
    Judges Γ (u ++ v) (do
        let ty ← condition (parenthesized budget)
        let a ← requireBool ty what
        f a)
      ((allowed (c.type? Γ = some .bool)).bind fun _ => x) Γ' rest := by
  rw [← bind_allowed_bool, Option.bind_assoc]
  refine (judges_expression c budget hΓ hu hv).bind fun ty _ => ?_
  exact (judges_requireBool ty what).bind fun _ _ => hf

variable {nested : Nested} {kind : BodyKind}

theorem judges_assign (target : String) (value : Expr .simpleExpr) (budget : Nat) (hΓ : Γ ≠ [])
    (hu : u.map Token.terminal = (Stmt.assign target value).yield)
    (hv : Stops Kind.isOperator v) :
    Judges Γ (u ++ v) (assignStmt (parenthesized budget))
      (allowed ((Stmt.assign target value).check Γ)) Γ v := by
  obtain ⟨name, u, rfl, hname, hu⟩ := Token.map_terminal_eq_cons hu
  obtain ⟨equal, e, rfl, hequal, he⟩ := Token.map_terminal_eq_cons hu
  obtain ⟨hkind, rfl⟩ := Token.eq_of_terminal_name hname
  have hequal := Token.kind_of_terminal_of hequal
  have hanswer : allowed ((Stmt.assign name.text value).check Γ) =
      (Γ.find? name.text).bind fun τ => (value.type? Γ).bind fun σ => allowed (σ = τ) := by
    cases hτ : Γ.find? name.text <;> cases hσ : value.type? Γ <;>
      simp [Stmt.check, allowed, hτ, hσ]
  rw [hanswer]
  refine (judges_expect hkind).next ?_
  refine (judges_lookup name.text hΓ).bind fun τ _ => ?_
  refine (judges_expect hequal).next ?_
  refine (judges_simpleExpr value budget hΓ he hv).bind fun σ _ => ?_
  rw [allowed]
  split
  · exact judges_pure ()
  · exact judges_failSemantic _

theorem judges_read (lexeme : String) (hΓ : Γ ≠ [])
    (hu : u.map Token.terminal = (Stmt.read lexeme).yield) :
    Judges Γ (u ++ v) readStmt (allowed ((Stmt.read lexeme).check Γ)) Γ v := by
  obtain ⟨kwIn, u, rfl, hin, hu⟩ := Token.map_terminal_eq_cons hu
  obtain ⟨left, u, rfl, hleft, hu⟩ := Token.map_terminal_eq_cons hu
  obtain ⟨name, u, rfl, hname, hu⟩ := Token.map_terminal_eq_cons hu
  obtain ⟨right, rfl, hright⟩ := List.map_eq_singleton_iff.1 hu
  obtain ⟨hkind, rfl⟩ := Token.eq_of_terminal_name hname
  rw [Stmt.check, allowed_isSome]
  refine (judges_expect_of hin).next ((judges_expect_of hleft).next ?_)
  refine (judges_expect hkind).next ?_
  refine (judges_lookup name.text hΓ).bind fun τ _ => ?_
  exact (judges_expect_of hright).next (judges_pure ())

theorem judges_writeLiteral {inner : Parsing Ty}
    (hu : u.map Token.terminal = Stmt.writeLiteral.yield) :
    Judges Γ (u ++ v) (writeStmt inner) (allowed (Stmt.writeLiteral.check Γ)) Γ v := by
  obtain ⟨out, u, rfl, hout, hu⟩ := Token.map_terminal_eq_cons hu
  obtain ⟨left, u, rfl, hleft, hu⟩ := Token.map_terminal_eq_cons hu
  obtain ⟨literal, u, rfl, hliteral, hu⟩ := Token.map_terminal_eq_cons hu
  obtain ⟨right, rfl, hright⟩ := List.map_eq_singleton_iff.1 hu
  have hwritable : Judges Γ (literal :: right :: v) (writable inner) (some ()) Γ (right :: v) := by
    refine .looking ?_
    simp only [List.head?_cons, Option.map_some, Option.any_some,
      Token.kind_of_terminal_of hliteral, decide_true, if_true]
    exact (judges_expect_of hliteral).next (judges_pure ())
  refine (judges_expect_of hout).next ((judges_expect_of hleft).next ?_)
  refine hwritable.next ?_
  exact (judges_expect_of hright).next (judges_pure ())

theorem judges_write (value : Expr .simpleExpr) (budget : Nat) (hΓ : Γ ≠ [])
    (hu : u.map Token.terminal = (Stmt.write value).yield) :
    Judges Γ (u ++ v) (writeStmt (parenthesized budget))
      (allowed ((Stmt.write value).check Γ)) Γ v := by
  obtain ⟨out, u, rfl, hout, hu⟩ := Token.map_terminal_eq_cons hu
  obtain ⟨left, u, rfl, hleft, hu⟩ := Token.map_terminal_eq_cons hu
  obtain ⟨e, w, rfl, he, hw⟩ := List.map_eq_append_iff.1 hu
  obtain ⟨right, rfl, hright⟩ := List.map_eq_singleton_iff.1 hw
  obtain ⟨first, e, rfl, hfirst⟩ := head_expr he
  have hwritable : Judges Γ (first :: e ++ right :: v) (writable (parenthesized budget))
      ((value.type? Γ).bind fun _ => some ()) Γ (right :: v) := by
    refine .looking ?_
    simp only [List.cons_append, List.head?_cons, Option.map_some, Option.any_some, hfirst,
      decide_false]
    exact (judges_simpleExpr value budget hΓ he (stops_of_terminal hright rfl)).bind fun _ _ =>
      judges_pure ()
  rw [Stmt.check, allowed_isSome]
  simp only [List.cons_append, List.append_assoc, List.nil_append] at hwritable ⊢
  refine (judges_expect_of hout).next ((judges_expect_of hleft).next ?_)
  exact hwritable.keep fun _ => (judges_expect_of hright).next (judges_pure ())

/-- A statement of a form is read and judged where nothing goes on with it. -/
def JudgesStmt (budget : Nat) {form : StmtForm} (s : Stmt form) : Prop :=
  ∀ {Γ : Env} {u v : List Token} (kind : BodyKind), Γ ≠ [] → u.map Token.terminal = s.yield →
    Stops form.goesOn v →
    Judges Γ (u ++ v) (form.procedure (Parsing.nested budget) kind) (allowed (s.check Γ)) Γ v

section Bodies

variable {c : Expr .expression} {body other : Stmt .body} {budget : Nat}

theorem judges_ifThen (hbody : JudgesStmt budget body) (hΓ : Γ ≠ [])
    (hu : u.map Token.terminal = (Stmt.ifThen c body).yield) :
    Judges Γ (u ++ v) (ifStmt (Parsing.nested budget))
      (allowed ((Stmt.ifThen c body).check Γ)) Γ v := by
  obtain ⟨kwIf, u, rfl, hif, hu⟩ := Token.map_terminal_eq_cons hu
  obtain ⟨ct, u, rfl, hc, hu⟩ := List.map_eq_append_iff.1 hu
  obtain ⟨kwThen, u, rfl, hthen, hu⟩ := Token.map_terminal_eq_cons hu
  obtain ⟨bt, u, rfl, hb, hu⟩ := List.map_eq_append_iff.1 hu
  obtain ⟨kwEnd, rfl, hend⟩ := List.map_eq_singleton_iff.1 hu
  simp only [Stmt.check, List.cons_append, List.append_assoc, List.nil_append,
    Bool.and_eq_true, decide_eq_true_eq, allowed_and]
  refine (judges_expect_of hif).next ?_
  refine judges_condition c budget _ hΓ hc (stops_of_terminal hthen rfl) ?_
  refine (judges_expect_of hthen).next ?_
  refine (hbody .ifThen hΓ hb (stops_of_terminal hend rfl)).keep fun _ => .looking ?_
  simp only [List.head?_cons, Option.map_some, Option.any_some, Token.kind_of_terminal_of hend]
  exact (judges_expect_of hend).next (judges_pure ())

theorem judges_ifElse (hbody : JudgesStmt budget body) (hother : JudgesStmt budget other)
    (hΓ : Γ ≠ []) (hu : u.map Token.terminal = (Stmt.ifElse c body other).yield) :
    Judges Γ (u ++ v) (ifStmt (Parsing.nested budget))
      (allowed ((Stmt.ifElse c body other).check Γ)) Γ v := by
  obtain ⟨kwIf, u, rfl, hif, hu⟩ := Token.map_terminal_eq_cons hu
  obtain ⟨ct, u, rfl, hc, hu⟩ := List.map_eq_append_iff.1 hu
  obtain ⟨kwThen, u, rfl, hthen, hu⟩ := Token.map_terminal_eq_cons hu
  obtain ⟨bt, u, rfl, hb, hu⟩ := List.map_eq_append_iff.1 hu
  obtain ⟨kwElse, u, rfl, helse, hu⟩ := Token.map_terminal_eq_cons hu
  obtain ⟨ot, u, rfl, ho, hu⟩ := List.map_eq_append_iff.1 hu
  obtain ⟨kwEnd, rfl, hend⟩ := List.map_eq_singleton_iff.1 hu
  simp only [Stmt.check, List.cons_append, List.append_assoc, List.nil_append,
    Bool.and_eq_true, decide_eq_true_eq, allowed_and, Option.bind_assoc]
  refine (judges_expect_of hif).next ?_
  refine judges_condition c budget _ hΓ hc (stops_of_terminal hthen rfl) ?_
  refine (judges_expect_of hthen).next ?_
  refine (hbody .ifThen hΓ hb (stops_of_terminal helse rfl)).bind fun _ _ => .looking ?_
  simp only [List.head?_cons, Option.map_some, Option.any_some, Token.kind_of_terminal_of helse,
    decide_true, if_true]
  refine (judges_expect_of helse).next ?_
  refine (hother .ifElse hΓ ho (stops_of_terminal hend rfl)).keep fun _ => ?_
  exact (judges_expect_of hend).next (judges_pure ())

theorem judges_whileDo (hbody : JudgesStmt budget body) (hΓ : Γ ≠ [])
    (hu : u.map Token.terminal = (Stmt.whileDo c body).yield) :
    Judges Γ (u ++ v) (whileStmt (Parsing.nested budget))
      (allowed ((Stmt.whileDo c body).check Γ)) Γ v := by
  obtain ⟨kwWhile, u, rfl, hwhile, hu⟩ := Token.map_terminal_eq_cons hu
  obtain ⟨ct, u, rfl, hc, hu⟩ := List.map_eq_append_iff.1 hu
  obtain ⟨kwDo, u, rfl, hdo, hu⟩ := Token.map_terminal_eq_cons hu
  obtain ⟨bt, u, rfl, hb, hu⟩ := List.map_eq_append_iff.1 hu
  obtain ⟨kwEnd, rfl, hend⟩ := List.map_eq_singleton_iff.1 hu
  simp only [Stmt.check, List.cons_append, List.append_assoc, List.nil_append,
    Bool.and_eq_true, decide_eq_true_eq, allowed_and]
  refine (judges_expect_of hwhile).next ?_
  refine judges_condition c budget _ hΓ hc (stops_of_terminal hdo rfl) ?_
  refine (judges_expect_of hdo).next ?_
  refine (hbody .whileBody hΓ hb (stops_of_terminal hend rfl)).keep fun _ => ?_
  exact (judges_expect_of hend).next (judges_pure ())

theorem judges_repeatUntil (hbody : JudgesStmt budget body) (hΓ : Γ ≠ [])
    (hu : u.map Token.terminal = (Stmt.repeatUntil body c).yield)
    (hv : Stops Kind.isOperator v) :
    Judges Γ (u ++ v) (repeatStmt (Parsing.nested budget))
      (allowed ((Stmt.repeatUntil body c).check Γ)) Γ v := by
  obtain ⟨kwRepeat, u, rfl, hrepeat, hu⟩ := Token.map_terminal_eq_cons hu
  obtain ⟨bt, u, rfl, hb, hu⟩ := List.map_eq_append_iff.1 hu
  obtain ⟨kwUntil, ct, rfl, huntil, hc⟩ := Token.map_terminal_eq_cons hu
  simp only [Stmt.check, List.cons_append, List.append_assoc, Bool.and_eq_true,
    decide_eq_true_eq, allowed_and, ← bind_allowed_bool]
  refine (judges_expect_of hrepeat).next ?_
  refine (hbody .repeatBody hΓ hb (stops_of_terminal huntil rfl)).bind fun _ _ => ?_
  refine (judges_expect_of huntil).next ?_
  exact (judges_expression c budget hΓ hc hv).bind fun ty _ => judges_requireBool ty _

end Bodies

theorem head_kind {t : Terminal} {w : List Terminal} (hu : u.map Token.terminal = t :: w) :
    (u ++ v).head?.map Token.kind = some t.kind := by
  obtain ⟨token, u, rfl, ht, -⟩ := List.map_eq_cons_iff.1 hu
  rw [← ht, Token.kind_terminal]
  rfl

/-- No list of statements begins like a declaration. -/
theorem stops_stmtList {stmts : Stmt .stmtList} (hu : u.map Token.terminal = stmts.yield) :
    Stops Kind.beginsDecl (u ++ v) := by
  have hstmt (s : Stmt .stmt) : ∃ t w, s.yield = t :: w ∧ t.kind.beginsDecl = false := by
    cases s <;> exact ⟨_, _, rfl, rfl⟩
  have hlist : ∃ t w, stmts.yield = t :: w ∧ t.kind.beginsDecl = false := by
    cases stmts with
    | last s => exact hstmt s
    | cons s stmts =>
      obtain ⟨t, w, hyield, ht⟩ := hstmt s
      exact ⟨t, w ++ ([.of .semicolon] ++ stmts.yield), by rw [Stmt.yield, hyield]; rfl, ht⟩
  obtain ⟨t, w, hyield, ht⟩ := hlist
  rw [Stops, head_kind (hu.trans hyield)]
  exact ht

theorem judges_last {s : Stmt .stmt} {budget : Nat} (hs : JudgesStmt budget s) :
    JudgesStmt budget (.last s) := by
  intro Γ u v kind hΓ hu hv
  have hoperator : Stops Kind.isOperator v := hv.mono fun _ h => Bool.or_eq_true_iff.2 (.inl h)
  have hsemicolon : Stops (· = .semicolon) v := hv.mono fun _ h => Bool.or_eq_true_iff.2 (.inr h)
  exact (hs kind hΓ hu hoperator).keep fun _ => judges_whileLooking_of_stops hsemicolon ()

/-- A list goes on with a semicolon and another list. -/
theorem judges_cons {s : Stmt .stmt} {stmts : Stmt .stmtList} {budget : Nat}
    (hs : JudgesStmt budget s) (hstmts : JudgesStmt budget stmts) :
    JudgesStmt budget (.cons s stmts) := by
  intro Γ u v kind hΓ hu hv
  obtain ⟨l, w, rfl, hl, hw⟩ := List.map_eq_append_iff.1 hu
  obtain ⟨semicolon, r, rfl, hsemicolon, hr⟩ := Token.map_terminal_eq_cons hw
  have hkind := Token.kind_of_terminal_of hsemicolon
  simp only [Stmt.check, Bool.and_eq_true, allowed_and, List.append_assoc, List.cons_append]
  refine (hs kind hΓ hl (stops_of_terminal hsemicolon rfl)).bind fun _ _ => ?_
  -- After the semicolon the loop reads as if the list began there.
  refine .whileLooking (advances_stmtStep (nestedReads budget)) (decide_eq_true hkind) ?_
  simp only [bind_assoc]
  exact (judges_expect hkind).next (hstmts kind hΓ hr hv)

theorem judges_block {decls : List Decl} {stmts : Stmt .stmtList}
    (hstmts : ∀ budget, JudgesStmt budget stmts) (budget : Nat) :
    JudgesStmt budget (.block decls stmts) := by
  intro Γ u v kind hΓ hu hv
  obtain ⟨d, l, rfl, hd, hl⟩ := List.map_eq_append_iff.1 hu
  change Judges Γ (d ++ l ++ v) (body budget kind) _ Γ v
  -- Out of budget the body is not read, and whatever the rules say of it is no matter.
  unfold body
  split
  · next budget =>
    have hlist := hstmts budget kind (List.cons_ne_nil (declBindings decls) Γ) hl hv
    simp only [Stmt.check, Bool.and_eq_true, decide_eq_true_eq, allowed_and, List.append_assoc]
    refine (judges_enterScope _).next ?_
    refine (judges_optionalDecls Γ hd (stops_stmtList hl)).bind fun _ _ => ?_
    exact hlist.keep fun _ => judges_leaveScope _
  · exact judges_tooDeep

/-- What is read by the first token of a word depends on the first terminal of the word. -/
theorem judges_of_head {t : Terminal} {w : List Terminal}
    {f : Option Kind → Parsing α} {x : Option α} (hu : u.map Token.terminal = t :: w)
    (h : Judges Γ (u ++ v) (f (some t.kind)) x Γ' rest) :
    Judges Γ (u ++ v) (Parsing.lookKind? >>= f) x Γ' rest := by
  refine .lookKind? ?_
  rwa [head_kind hu]

/-- Every statement is judged by the rules. -/
theorem judges_stmt {form : StmtForm} (s : Stmt form) (budget : Nat) : JudgesStmt budget s := by
  induction s generalizing budget with
  | assign target value =>
    intro Γ u v kind hΓ hu hv
    exact judges_of_head hu (judges_assign target value budget hΓ hu hv)
  | ifThen c body ih =>
    intro Γ u v kind hΓ hu hv
    exact judges_of_head hu (judges_ifThen (ih budget) hΓ hu)
  | ifElse c body other ih ih' =>
    intro Γ u v kind hΓ hu hv
    exact judges_of_head hu (judges_ifElse (ih budget) (ih' budget) hΓ hu)
  | whileDo c body ih =>
    intro Γ u v kind hΓ hu hv
    exact judges_of_head hu (judges_whileDo (ih budget) hΓ hu)
  | repeatUntil body c ih =>
    intro Γ u v kind hΓ hu hv
    exact judges_of_head hu (judges_repeatUntil (ih budget) hΓ hu hv)
  | read name =>
    intro Γ u v kind hΓ hu hv
    exact judges_of_head hu (judges_read name hΓ hu)
  | writeLiteral =>
    intro Γ u v kind hΓ hu hv
    exact judges_of_head hu (judges_writeLiteral hu)
  | write value =>
    intro Γ u v kind hΓ hu hv
    exact judges_of_head hu (judges_write value budget hΓ hu)
  | last s ih => exact judges_last (ih budget)
  | cons s stmts ih ih' => exact judges_cons (ih budget) (ih' budget)
  | block decls stmts ih => exact judges_block ih budget

/-! ### Programs -/

/-- A program is judged by the rules. -/
theorem judges_program (p : Program) (budget : Nat) {tokens : List Token}
    (h : p.Derives tokens) :
    Judges [[]] tokens (program (Parsing.nested budget)) (allowed p.WellTyped)
      [declBindings p.decls] [] := by
  obtain ⟨kwProgram, u, rfl, hprogram, hu⟩ := Token.map_terminal_eq_cons h
  obtain ⟨d, u, rfl, hd, hu⟩ := List.map_eq_append_iff.1 hu
  obtain ⟨kwBegin, u, rfl, hbegin, hu⟩ := Token.map_terminal_eq_cons hu
  obtain ⟨l, u, rfl, hl, hu⟩ := List.map_eq_append_iff.1 hu
  obtain ⟨kwEnd, rfl, hend⟩ := List.map_eq_singleton_iff.1 hu
  have hanswer : allowed p.WellTyped = (allowed (NoneTwice p.decls)).bind fun _ =>
      allowed (p.stmts.check [declBindings p.decls]) := by
    rw [← allowed_and]
    unfold allowed
    congr 1
    exact propext Program.wellTyped_iff
  have hlist := judges_stmt p.stmts budget .ifThen (List.cons_ne_nil (declBindings p.decls) [])
    hl (stops_of_terminal hend rfl : Stops _ [kwEnd])
  rw [hanswer]
  refine (judges_expect_of hprogram).next ?_
  refine (judges_optionalDecls [] hd (stops_of_terminal hbegin rfl)).bind fun _ _ => ?_
  refine (judges_expect_of hbegin).next ?_
  refine hlist.keep fun _ => ?_
  exact (judges_expect_of hend).next (judges_pure ())

end Parsing

end MiniPascal
