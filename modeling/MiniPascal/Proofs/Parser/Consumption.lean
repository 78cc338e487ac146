import MiniPascal.Proofs.Parser.Recognition

/-!
# What procedures consume

No phrase of the grammar is empty, so a procedure that reads a phrase has passed a token when it
returns (`Parsing.spans_procedure`), from whatever state it was called in and however nested parts
are read, as long as they are read according to the grammar.

A loop takes turns (`Parsing.Turns`). If every turn passes a token then `n` turns pass `n`
tokens, so the loop comes to the end of its turns, with no regard to its fuel
(`Parsing.exists_turns`).

* `Parsing.Iterates`: a procedure reads a first item and goes on with a loop, each turn of which
  begins only after one more token has been passed.
-/

namespace MiniPascal

namespace Parsing

variable {α β : Type} {n k : Nat} {L : Language Terminal}

/-! ### Sequences -/

/-- Whenever the procedure `m` returns, it has passed at least `n` tokens. -/
def Spans (n : Nat) (m : Parsing α) : Prop :=
  ∀ ⦃s : Parser⦄ ⦃a : α⦄ ⦃t : Parser⦄, m.run s = .ok a t → s.PassesAtLeast n t

theorem Reads.spans {m : Parsing α} (h : Reads L m) : Spans 0 m := by
  intro s a t hrun
  have hreads := h.run s
  rw [hrun] at hreads
  exact hreads.passesAtLeast

theorem Reads.spans_one {m : Parsing α} (h : Reads L m) (hL : [] ∉ L) : Spans 1 m := by
  intro s a t hrun
  have hreads := h.run s
  rw [hrun] at hreads
  exact hreads.passesAtLeast_one hL

theorem Spans.bind {m : Parsing α} {f : α → Parsing β} (h : Spans n m)
    (hf : ∀ a, Spans k (f a)) : Spans (n + k) (m >>= f) := by
  intro s b t hrun
  obtain ⟨a, s₁, hm, hfa⟩ := exists_of_run_bind hrun
  exact (h hm).trans (hf a hfa)

theorem spans_move {s t : Parser} {token : Token} (hlook : s.look = some token)
    (hrun : move.run s = .ok () t) : s.PassesAtLeast 1 t := by
  have hreads := readsFrom_move hlook
  rw [hrun] at hreads
  exact hreads.passesAtLeast_one (List.cons_ne_nil _ _).symm

theorem spans_expect (kind : Kind) : Spans 1 (expect kind) :=
  (reads_expect_kind kind).spans_one fun ⟨_, _, h⟩ => List.cons_ne_nil _ _ h.symm

theorem spans_lookup (name : String) : Spans 0 (lookup name) :=
  (reads_lookup name).spans

theorem spans_requireBool (ty : Ty) (what : String) : Spans 0 (requireBool ty what) :=
  (reads_requireBool ty what).spans

/-! ### Loops -/

variable {p : Kind → Bool} {step : Kind → α → Parsing α} {a b : α} {s t : Parser}

/-- So many turns of a loop lead from `a` at `s` to `b` at `t`. -/
inductive Turns (p : Kind → Bool) (step : Kind → α → Parsing α) :
    Nat → α → Parser → α → Parser → Prop
  | refl (a : α) (s : Parser) : Turns p step 0 a s a s
  | head {token : Token} {n : Nat} {a c b : α} {s s' t : Parser} :
    s.look = some token → p token.kind = true → (step token.kind a).run s = .ok c s' →
      Turns p step n c s' b t → Turns p step (n + 1) a s b t

/-- How a loop ends whose turns have led to `b` at `t`: there is no further turn, or the next one
    is interrupted. -/
inductive Ends (p : Kind → Bool) (step : Kind → α → Parsing α) (b : α) (t : Parser) :
    Result α → Prop
  | stop : (t.look.map Token.kind).any p = false → Ends p step b t (.ok b t)
  | interrupt {token : Token} {e : Interrupt} {t' : Parser} : t.look = some token →
    p token.kind = true → (step token.kind b).run t = .error e t' →
      Ends p step b t (.error e t')

theorem Turns.passes (hstep : Progresses p step) (h : Turns p step n a s b t) :
    s.PassesAtLeast n t := by
  induction h with
  | refl a s => exact .refl s
  | head hlook hp hrun _ ih =>
    rw [Nat.add_comm]
    exact (hstep _ _ _ _ _ hlook hp hrun).trans ih

/-- A loop whose step advances comes to the end of its turns. -/
theorem exists_turns (hstep : Advances p step) (a : α) (s : Parser) :
    ∃ n b t, Turns p step n a s b t ∧ Ends p step b t ((whileLooking p a step).run s) := by
  -- Every turn leaves fewer tokens.
  induction hn : s.ahead.length using Nat.strong_induction_on generalizing a s with
  | _ n ih =>
    cases hlooking : (s.look.map Token.kind).any p with
    | false =>
      rw [whileLooking_run_of_not hlooking]
      exact ⟨0, a, s, .refl a s, .stop hlooking⟩
    | true =>
      obtain ⟨token, hlook, hp⟩ := looking_iff.1 hlooking
      rw [whileLooking_run hstep hlook hp]
      cases hrun : (step token.kind a).run s with
      | ok c s' =>
        have hlt := hstep token a s c s' hlook hp hrun
        obtain ⟨k, b, t, hturns, hends⟩ := ih _ (hn ▸ hlt) c s' rfl
        exact ⟨k + 1, b, t, .head hlook hp hrun hturns, hends⟩
      | error e s' => exact ⟨0, a, s, .refl a s, .interrupt hlook hp hrun⟩

/-- The procedure `m` reads a first item and goes on with a loop. The loop comes to the end of
    its turns, and before each of them another token has been passed: one before the first turn,
    two before the second, and so on. -/
structure Iterates (first : Parsing α) (p : Kind → Bool) (step : Kind → α → Parsing α)
    (m : Parsing α) : Prop where
  eq : m = first >>= fun a => whileLooking p a step
  ends (a : α) (s : Parser) :
    ∃ n b t, Turns p step n a s b t ∧ Ends p step b t ((whileLooking p a step).run s)
  passes {n : Nat} {a b : α} {s s' t : Parser} : first.run s = .ok a s' →
    Turns p step n a s' b t → s.PassesAtLeast (n + 1) t

theorem iterates {first : Parsing α} (hfirst : Spans 1 first) (hstep : Progresses p step) :
    Iterates first p step (first >>= fun a => whileLooking p a step) where
  eq := rfl
  ends := exists_turns hstep.advances
  passes {n} _ _ _ _ _ hrun hturns :=
    Nat.add_comm n 1 ▸ (hfirst hrun).trans (hturns.passes hstep)

end Parsing

/-! ### The procedures -/

/-- The procedures that read a phrase of the grammar. -/
inductive Procedure
  | typeSpec
  | identList (ty : Ty)
  | decl
  | declList
  | constant
  | factor
  | factorA
  | term
  | simpleExpr
  | expression
  | writable
  | stmt
  | stmtList
  | block (hint : Option String)
  | program
  | parse

namespace Procedure

/-- What a procedure answers: an expression and a type their type, the others nothing. -/
def Answer : Procedure → Type
  | typeSpec | constant | factor | factorA | term | simpleExpr | expression => Ty
  | _ => Unit

/-- A procedure of the parser, given how nested parts are read. -/
def parsing (nested : Nested) : (p : Procedure) → Parsing p.Answer
  | typeSpec => Parsing.typeSpec
  | identList ty => Parsing.identList ty
  | decl => Parsing.decl
  | declList => Parsing.declList
  | constant => Parsing.constant
  | factor => Parsing.factor nested.inner
  | factorA => Parsing.factorA nested.inner
  | term => Parsing.term nested.inner
  | simpleExpr => Parsing.simpleExpr nested.inner
  | expression => Parsing.expression nested.inner
  | writable => Parsing.writable nested.inner
  | stmt => Parsing.stmt nested
  | stmtList => Parsing.stmtList nested
  | block hint => Parsing.block nested hint
  | program => Parsing.program nested
  | parse => Parsing.parse nested

end Procedure

namespace Parsing

variable {nested : Nested}

theorem spans_typeSpec : Spans 1 typeSpec :=
  reads_typeSpec.spans_one fun ⟨_, h⟩ => List.cons_ne_nil _ _ h.symm

theorem spans_declaredName (ty : Ty) : Spans 1 (declaredName ty) :=
  (reads_declaredName ty).spans_one fun ⟨_, h⟩ => List.cons_ne_nil _ _ h.symm

theorem spans_identList (ty : Ty) : Spans 1 (identList ty) :=
  (spans_declaredName ty).bind fun _ =>
    (reads_whileLooking (fun _ _ s _ _ => (reads_identStep ty).run s) ()).spans

theorem spans_decl : Spans 1 decl :=
  reads_decl.spans_one nil_notMem_declLanguage

theorem spans_declList : Spans 1 declList :=
  spans_decl.bind fun _ => (reads_whileLooking (fun _ _ s _ _ => reads_decl.run s) ()).spans

theorem spans_constant : Spans 1 constant := by
  intro s ty t hrun
  rw [constant, run_bind, run_lookKind?, bind_ok] at hrun
  cases hty : (s.look.map Token.kind).bind Kind.constantType? with
  | none =>
    rw [hty] at hrun
    cases hrun
  | some found =>
    obtain ⟨kind, hkind, -⟩ := Option.bind_eq_some_iff.1 hty
    obtain ⟨token, hlook, -⟩ := Option.map_eq_some_iff.1 hkind
    rw [hty] at hrun
    obtain ⟨_, t', hmove, ⟨⟩⟩ := exists_of_run_bind hrun
    exact spans_move hlook hmove

theorem spans_writable (hinner : Reads (ExprForm.language .expression) nested.inner) :
    Spans 1 (writable nested.inner) := by
  refine (reads_writable hinner).spans_one ?_
  rintro (h | h)
  · exact List.cons_ne_nil _ _ h.symm
  · exact ExprForm.nil_notMem_language _ h

/-- A procedure that returns has passed a token. -/
theorem spans_procedure (hnested : NestedReads nested) (p : Procedure) :
    Spans 1 (p.parsing nested) := by
  have hinner := hnested.inner
  cases p with
  | typeSpec => exact spans_typeSpec
  | identList ty => exact spans_identList ty
  | decl => exact spans_decl
  | declList => exact spans_declList
  | constant => exact spans_constant
  | factor => exact (reads_factor hinner).spans_one (ExprForm.nil_notMem_language _)
  | factorA => exact (reads_factorA hinner).spans_one (ExprForm.nil_notMem_language _)
  | term => exact (reads_term hinner).spans_one (ExprForm.nil_notMem_language _)
  | simpleExpr => exact (reads_simpleExpr hinner).spans_one (ExprForm.nil_notMem_language _)
  | expression => exact (reads_expression hinner).spans_one (ExprForm.nil_notMem_language _)
  | writable => exact spans_writable hinner
  | stmt => exact (reads_stmt hnested).spans_one (StmtForm.nil_notMem_language _)
  | stmtList => exact (reads_stmtList hnested).spans_one (StmtForm.nil_notMem_language _)
  | block hint => exact (reads_block hnested hint).spans_one (StmtForm.nil_notMem_language _)
  | program => exact (reads_program hnested).spans_one nil_notMem_programLanguage
  | parse => exact (reads_parse hnested).spans_one nil_notMem_programLanguage

end Parsing

end MiniPascal
