import MiniPascal.Proofs.Parser.Consumption
import MiniPascal.Proofs.Parser.Spending

/-!
# Descent into nested parts

A procedure reads a nested part, the expression in parentheses or a body, only after it has
passed a token. So what it does from a state is settled by how nested parts are read further
on (`Parsing.run_procedure_congr`), whatever is done with them elsewhere.

Two procedures agree from a state on (`Parsing.AgreeFrom`) if they do the same wherever so many
tokens have been passed since. As for what is read and spent, agreement is put together along
sequences and loops, and a nested part has to agree only behind the token before it.
-/

namespace MiniPascal

namespace Parsing

variable {α β : Type} {o : Parser} {n k : Nat}

/-! ### Agreement further on -/

/-- Where at least `n` tokens have been passed since `o`, the two procedures do the same. -/
def AgreeFrom (o : Parser) (n : Nat) (m m' : Parsing α) : Prop :=
  ∀ s, o.PassesAtLeast n s → m.run s = m'.run s

/-- The two procedures do so where a token is looked at. -/
def AgreeLooking (o : Parser) (n : Nat) (m m' : Parsing α) : Prop :=
  ∀ s token, s.look = some token → o.PassesAtLeast n s → m.run s = m'.run s

namespace AgreeFrom

variable {m m' : Parsing α} {f f' : α → Parsing β}

theorem refl (m : Parsing α) : AgreeFrom o n m m :=
  fun _ _ => rfl

theorem mono (h : AgreeFrom o n m m') (hle : n ≤ k) : AgreeFrom o k m m' :=
  fun s hs => h s (hs.mono hle)

theorem looking (h : AgreeFrom o n m m') : AgreeLooking o n m m' :=
  fun s _ _ => h s

theorem bind (h : AgreeFrom o n m m') (hm : Spans k m)
    (hf : ∀ a, AgreeFrom o (n + k) (f a) (f' a)) : AgreeFrom o n (m >>= f) (m' >>= f') := by
  intro s hs
  rw [run_bind, run_bind, ← h s hs]
  cases hrun : m.run s with
  | ok a t => exact hf a t (hs.trans (hm hrun))
  | error e t => rfl

end AgreeFrom

/-- After the same beginning. -/
theorem agree_after {m : Parsing α} {f f' : α → Parsing β} (hm : Spans k m)
    (hf : ∀ a, AgreeFrom o (n + k) (f a) (f' a)) : AgreeFrom o n (m >>= f) (m >>= f') :=
  (AgreeFrom.refl m).bind hm hf

theorem agree_move_bind {f f' : Unit → Parsing α}
    (hf : ∀ u, AgreeFrom o (n + 1) (f u) (f' u)) :
    AgreeLooking o n (move >>= f) (move >>= f') := by
  intro s token hlook hs
  rw [run_bind, run_bind]
  cases hrun : move.run s with
  | ok u t => exact hf u t (hs.trans (spans_move hlook hrun))
  | error e t => rfl

theorem agree_lookKind?_bind {f f' : Option Kind → Parsing α}
    (hnone : AgreeFrom o n (f none) (f' none))
    (hsome : ∀ kind, AgreeLooking o n (f (some kind)) (f' (some kind))) :
    AgreeFrom o n (lookKind? >>= f) (lookKind? >>= f') := by
  intro s hs
  rw [run_bind, run_bind, run_lookKind?, bind_ok, bind_ok]
  cases hlook : s.look with
  | none => exact hnone s hs
  | some token => exact hsome token.kind s token hlook hs

theorem agree_looking_bind {p : Kind → Bool} {f f' : Bool → Parsing α}
    (hfalse : AgreeFrom o n (f false) (f' false))
    (htrue : AgreeLooking o n (f true) (f' true)) :
    AgreeFrom o n (looking p >>= f) (looking p >>= f') := by
  intro s hs
  rw [run_bind, run_bind, run_looking, bind_ok, bind_ok]
  cases hlooking : (s.look.map Token.kind).any p with
  | false => exact hfalse s hs
  | true =>
    obtain ⟨token, hlook, -⟩ := looking_iff.1 hlooking
    exact htrue s token hlook hs

/-- Loops whose turns agree do so. -/
theorem agree_whileLooking {p : Kind → Bool} {step step' : Kind → α → Parsing α}
    (hstep : Progresses p step)
    (h : ∀ kind a, AgreeLooking o n (step kind a) (step' kind a)) (a : α) :
    AgreeFrom o n (whileLooking p a step) (whileLooking p a step') := by
  have hrepeat (fuel : Nat) (a : α) :
      AgreeFrom o n (repeatWhile p step fuel a) (repeatWhile p step' fuel a) := by
    induction fuel generalizing a with
    | zero => exact .refl _
    | succ fuel ih =>
      intro s hs
      cases hlooking : (s.look.map Token.kind).any p with
      | false => rw [repeatWhile_run_of_not hlooking, repeatWhile_run_of_not hlooking]
      | true =>
        obtain ⟨token, hlook, hp⟩ := looking_iff.1 hlooking
        rw [repeatWhile_run_succ hlook hp, repeatWhile_run_succ hlook hp,
          ← h token.kind a s token hlook hs]
        cases hrun : (step token.kind a).run s with
        | ok b t =>
          have ht := hs.trans (hstep token a s b t hlook hp hrun)
          exact ih b t (ht.mono (Nat.le_add_right n 1))
        | error e t => rfl
  exact fun s hs => hrepeat _ a s hs

/-! ### Expressions -/

section Expressions

variable {inner inner' : Parsing Ty} (hreads : Reads (ExprForm.language .expression) inner)
  (h : AgreeFrom o 1 inner inner')
include hreads h

theorem agree_factor : AgreeFrom o 0 (factor inner) (factor inner') := by
  refine agree_lookKind?_bind (.refl _) fun kind => AgreeFrom.looking ?_
  split
  · exact .refl _
  · -- The one place where an expression is entered: its parenthesis has been passed.
    refine agree_after (spans_expect _) fun _ => ?_
    exact (h.mono (by omega)).bind hreads.spans fun ty => .refl _
  · exact .refl _
  · exact .refl _

theorem agree_factorA : AgreeFrom o 0 (factorA inner) (factorA inner') := by
  have hfactor := agree_factor hreads h
  have hspans := (reads_factor hreads).spans
  refine agree_lookKind?_bind hfactor fun kind => ?_
  split
  · exact agree_move_bind fun _ => (hfactor.mono (by omega)).bind hspans fun ty => .refl _
  · exact agree_move_bind fun _ => (hfactor.mono (by omega)).bind hspans fun ty => .refl _
  · exact hfactor.looking

omit hreads h in
theorem agree_chain {isOp : Kind → Bool} {operand operand' : Parsing Ty} {L : Language Terminal}
    (hreads : Reads L operand) (h : AgreeFrom o 0 operand operand') :
    AgreeFrom o 0 (chain isOp operand) (chain isOp operand') := by
  refine h.bind hreads.spans fun first => ?_
  refine agree_whileLooking (progresses_chainStep hreads) (fun op left => ?_) first
  exact agree_move_bind fun _ => (h.mono (by omega)).bind hreads.spans fun right => .refl _

theorem agree_term : AgreeFrom o 0 (term inner) (term inner') :=
  agree_chain (reads_factorA hreads) (agree_factorA hreads h)

theorem agree_simpleExpr : AgreeFrom o 0 (simpleExpr inner) (simpleExpr inner') :=
  agree_chain (reads_term hreads) (agree_term hreads h)

theorem agree_expression : AgreeFrom o 0 (expression inner) (expression inner') := by
  have hsimple := agree_simpleExpr hreads h
  have hspans := (reads_simpleExpr hreads).spans
  refine hsimple.bind hspans fun left => agree_looking_bind (.refl (pure left)) ?_
  exact agree_move_bind fun _ => (hsimple.mono (by omega)).bind hspans fun right => .refl _

theorem agree_writable : AgreeFrom o 0 (writable inner) (writable inner') := by
  have hliteral : AgreeFrom o 0 (do let _ ← expect .literal) (do let _ ← expect .literal) :=
    .refl _
  refine agree_looking_bind ?_ hliteral.looking
  exact (agree_simpleExpr hreads h).bind (reads_simpleExpr hreads).spans fun _ => .refl _

theorem agree_assignStmt : AgreeFrom o 0 (assignStmt inner) (assignStmt inner') := by
  have hspans := (reads_simpleExpr hreads).spans
  refine agree_after (spans_expect _) fun token => agree_after (spans_lookup _) fun target => ?_
  refine agree_after (spans_expect _) fun _ => ?_
  exact ((agree_simpleExpr hreads h).mono (by omega)).bind hspans fun value => .refl _

theorem agree_writeStmt : AgreeFrom o 0 (writeStmt inner) (writeStmt inner') := by
  have hspans := (reads_writable hreads).spans
  refine agree_after (spans_expect _) fun _ => agree_after (spans_expect _) fun _ => ?_
  exact ((agree_writable hreads h).mono (by omega)).bind hspans fun _ => .refl _

end Expressions

/-! ### Statements -/

/-- Two ways to read nested parts agree where a token has been passed since `o`. -/
structure NestedAgree (o : Parser) (nested nested' : Nested) : Prop where
  inner : AgreeFrom o 1 nested.inner nested'.inner
  body (kind : BodyKind) : AgreeFrom o 1 (nested.body kind) (nested'.body kind)

section Statements

variable {nested nested' : Nested} (hreads : NestedReads nested)
  (h : NestedAgree o nested nested')
include hreads h

/-- A condition agrees like any expression. -/
theorem agree_condition : AgreeFrom o n (condition nested.inner) (condition nested'.inner) :=
  (agree_expression hreads.inner h.inner).mono (Nat.zero_le n)

theorem agree_ifStmt : AgreeFrom o 0 (ifStmt nested) (ifStmt nested') := by
  have hbody (kind : BodyKind) := (hreads.body kind).spans
  have hend {n : Nat} : AgreeFrom o n (do let _ ← expect .kwEnd) (do let _ ← expect .kwEnd) :=
    .refl _
  refine agree_after (spans_expect _) fun _ => ?_
  refine (agree_condition hreads h).bind (reads_expression hreads.inner).spans fun ty => ?_
  refine agree_after (spans_requireBool ty _) fun _ => agree_after (spans_expect _) fun _ => ?_
  refine ((h.body .ifThen).mono (by omega)).bind (hbody .ifThen) fun _ => ?_
  refine agree_looking_bind hend (AgreeFrom.looking ?_)
  refine agree_after (spans_expect _) fun _ => ?_
  exact ((h.body .ifElse).mono (by omega)).bind (hbody .ifElse) fun _ => hend

theorem agree_whileStmt : AgreeFrom o 0 (whileStmt nested) (whileStmt nested') := by
  refine agree_after (spans_expect _) fun _ => ?_
  refine (agree_condition hreads h).bind (reads_expression hreads.inner).spans fun ty => ?_
  refine agree_after (spans_requireBool ty _) fun _ => agree_after (spans_expect _) fun _ => ?_
  exact ((h.body .whileBody).mono (by omega)).bind (hreads.body .whileBody).spans fun _ => .refl _

theorem agree_repeatStmt : AgreeFrom o 0 (repeatStmt nested) (repeatStmt nested') := by
  refine agree_after (spans_expect _) fun _ => ?_
  refine ((h.body .repeatBody).mono (by omega)).bind (hreads.body .repeatBody).spans fun _ => ?_
  refine agree_after (spans_expect _) fun _ => ?_
  exact (agree_condition hreads h).bind (reads_expression hreads.inner).spans fun ty => .refl _

theorem agree_stmt : AgreeFrom o 0 (stmt nested) (stmt nested') := by
  refine agree_lookKind?_bind (.refl _) fun kind => AgreeFrom.looking ?_
  split
  · exact .refl _
  · exact agree_assignStmt hreads.inner h.inner
  · exact agree_ifStmt hreads h
  · exact agree_whileStmt hreads h
  · exact agree_repeatStmt hreads h
  · exact .refl _
  · exact agree_writeStmt hreads.inner h.inner
  · exact .refl _

theorem agree_stmtList : AgreeFrom o 0 (stmtList nested) (stmtList nested') := by
  have hstmt := agree_stmt hreads h
  refine hstmt.bind (reads_stmt hreads).spans fun _ => ?_
  refine agree_whileLooking (progresses_stmtStep hreads) (fun _ _ => AgreeFrom.looking ?_) ()
  exact agree_after (spans_expect _) fun _ => hstmt.mono (by omega)

theorem agree_block (hint : Option String) :
    AgreeFrom o 0 (block nested hint) (block nested' hint) := by
  refine agree_after (reads_enterScope hint).spans fun _ => ?_
  refine agree_after reads_optionalDecls.spans fun _ => ?_
  exact (agree_stmtList hreads h).bind (reads_stmtList hreads).spans fun _ => .refl _

theorem agree_program : AgreeFrom o 0 (program nested) (program nested') := by
  have hspans := (reads_stmtList hreads).spans
  refine agree_after (spans_expect _) fun _ => agree_after reads_optionalDecls.spans fun _ => ?_
  refine agree_after (spans_expect _) fun _ => ?_
  exact ((agree_stmtList hreads h).mono (by omega)).bind hspans fun _ => .refl _

theorem agree_parse : AgreeFrom o 0 (parse nested) (parse nested') :=
  (agree_program hreads h).bind (reads_program hreads).spans fun _ => .refl _

/-- What a procedure does from a state is settled by how nested parts are read once a token has
    been passed. -/
theorem run_procedure_congr (p : Procedure) :
    (p.parsing nested).run o = (p.parsing nested').run o := by
  have hagree : AgreeFrom o 0 (p.parsing nested) (p.parsing nested') := by
    have hinner := hreads.inner
    cases p with
    | typeSpec | identList | decl | declList | constant => exact .refl _
    | factor => exact agree_factor hinner h.inner
    | factorA => exact agree_factorA hinner h.inner
    | term => exact agree_term hinner h.inner
    | simpleExpr => exact agree_simpleExpr hinner h.inner
    | expression => exact agree_expression hinner h.inner
    | writable => exact agree_writable hinner h.inner
    | stmt => exact agree_stmt hreads h
    | stmtList => exact agree_stmtList hreads h
    | block hint => exact agree_block hreads h hint
    | program => exact agree_program hreads h
    | parse => exact agree_parse hreads h
  exact hagree o (.refl o)

end Statements

end Parsing

end MiniPascal
