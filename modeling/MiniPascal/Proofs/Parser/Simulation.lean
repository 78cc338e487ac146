import MiniPascal.Compile
import MiniPascal.Proofs.Parser.Recognition

/-!
# Runs side by side

Two runs of the parser that see the same thing do the same. What a parser sees of its
stream are the kinds of the tokens it looks at and the texts of names, so two parsers in
related states (`Likeness`) stay related through every procedure if the few operations
that procedures are made of keep them so: a `Simulation` is a likeness with those laws,
and `Simulation.respects_check` says that the whole check respects it.

The second run need not follow the first beyond some point. The first is `lost` from
there on, and then nothing is said of the second.
-/

namespace MiniPascal

namespace Parsing

variable {α β : Type}

/-- The parser after a run. -/
def finalState : Result α → Parser
  | .ok _ s => s
  | .error _ s => s

/-- A likeness of parsers: which states are alike, which names, which interruptions with
    the states they leave, and from which states on the first run is lost. -/
structure Likeness where
  states : Parser → Parser → Prop
  names : String → String → Prop
  stops : Interrupt → Parser → Interrupt → Parser → Prop
  lost : Parser → Prop

/-- Causes are alike up to the names in them. -/
inductive CausesAlike (names : String → String → Prop) : SemanticCause → SemanticCause → Prop
  | redeclared {n n' : String} : names n n' → CausesAlike names (.redeclared n) (.redeclared n')
  | undeclared {n n' : String} : names n n' → CausesAlike names (.undeclared n) (.undeclared n')
  | arithmetic (left right : Ty) :
    CausesAlike names (.arithmetic left right) (.arithmetic left right)
  | relation (left right : Ty) : CausesAlike names (.relation left right) (.relation left right)
  | assignment {n n' : String} (target value : Ty) : names n n' →
    CausesAlike names (.assignment n target value) (.assignment n' target value)
  | notBool (what : String) (found : Ty) :
    CausesAlike names (.notBool what found) (.notBool what found)
  | negation (found : Ty) : CausesAlike names (.negation found) (.negation found)

/-- Causes that are alike with the same names in them are the same. -/
theorem CausesAlike.eq {cause cause' : SemanticCause} (h : CausesAlike Eq cause cause') :
    cause = cause' := by
  cases h <;> simp_all

namespace Likeness

variable (R : Likeness)

/-- Results are alike: the same answer in states that are alike, or interruptions that are. -/
def Results : Result α → Result α → Prop
  | .ok a s, .ok a' s' => a = a' ∧ R.states s s'
  | .error e s, .error e' s' => R.stops e s e' s'
  | _, _ => False

/-- From states that are alike, two procedures come to results that are, unless the first
    gets lost; and from where it is lost it does not come back. -/
structure Respects (m m' : Parsing α) : Prop where
  alike {s s' : Parser} : R.states s s' →
    R.lost (finalState (m.run s)) ∨ R.Results (m.run s) (m'.run s')
  lost {s : Parser} : R.lost s → R.lost (finalState (m.run s))

end Likeness

/-- A likeness that the operations of the parser respect. -/
structure Simulation extends Likeness where
  kind {s s' : Parser} : states s s' → s.look.map Token.kind = s'.look.map Token.kind
  name {s s' : Parser} {token token' : Token} : states s s' → s.look = some token →
    s'.look = some token' → token.kind = .ident → names token.text token'.text
  total (n : String) : ∃ n', names n n'
  moves : toLikeness.Respects move move
  failsSyntax {s s' : Parser} (expectation : Expectation) : states s s' →
    stops (.fault ⟨.syntactic expectation s.look, some s.line⟩) s
      (.fault ⟨.syntactic expectation s'.look, some s'.line⟩) s'
  failsSemantic {s s' : Parser} {cause cause' : SemanticCause} : states s s' →
    CausesAlike names cause cause' →
    stops (.fault ⟨.semantic cause, some s.line⟩) s (.fault ⟨.semantic cause', some s'.line⟩) s'
  failsTooDeep {s s' : Parser} : states s s' → stops .tooDeep s .tooDeep s'
  enters (hint : Option String) : toLikeness.Respects (enterScope hint) (enterScope hint)
  leaves : toLikeness.Respects leaveScope leaveScope
  declares {n n' : String} (ty : Ty) : names n n' →
    toLikeness.Respects (declare n ty) (declare n' ty)
  looksUp {n n' : String} : names n n' → toLikeness.Respects (lookup n) (lookup n')

namespace Likeness

variable {R : Likeness}

theorem Respects.pure (a : α) : R.Respects (Pure.pure a) (Pure.pure a) :=
  ⟨fun h => .inr ⟨rfl, h⟩, id⟩

theorem lost_bind {r : Result α} {f : α → Parsing β} (h : R.lost (finalState r))
    (hf : ∀ a t, r = .ok a t → R.lost t → R.lost (finalState ((f a).run t))) :
    R.lost (finalState (Result.bind r f)) := by
  match r with
  | .ok a t => exact hf a t rfl h
  | .error e t => exact h

/-- Results that are alike stay so when one goes on with them in like ways. -/
theorem results_bind {r r' : Result α} {f f' : α → Parsing β}
    (h : R.lost (finalState r) ∨ R.Results r r')
    (hf : ∀ a t t', r = .ok a t → R.states t t' →
      R.lost (finalState ((f a).run t)) ∨ R.Results ((f a).run t) ((f' a).run t'))
    (hlost : ∀ a t, r = .ok a t → R.lost t → R.lost (finalState ((f a).run t))) :
    R.lost (finalState (Result.bind r f)) ∨ R.Results (Result.bind r f) (Result.bind r' f') := by
  match r, r', h with
  | .ok a t, .ok _ t', .inr ⟨rfl, ht⟩ => exact hf a t t' rfl ht
  | .error e t, .error e' t', .inr hstop => exact .inr hstop
  | .ok a t, _, .inl h => exact .inl (hlost a t rfl h)
  | .error e t, _, .inl h => exact .inl h

theorem Respects.bind {m m' : Parsing α} {f f' : α → Parsing β} (h : R.Respects m m')
    (hf : ∀ a, R.Respects (f a) (f' a)) : R.Respects (m >>= f) (m' >>= f') where
  alike hs := by
    rw [run_bind, run_bind]
    exact results_bind (h.alike hs) (fun a _ _ _ ht => (hf a).alike ht)
      fun a _ _ ht => (hf a).lost ht
  lost hs := by
    rw [run_bind]
    exact lost_bind (h.lost hs) fun a _ _ ht => (hf a).lost ht

end Likeness

namespace Simulation

variable {S : Simulation}

theorem respects_lookKind?_bind {f f' : Option Kind → Parsing α}
    (h : ∀ kind, S.Respects (f kind) (f' kind)) :
    S.Respects (lookKind? >>= f) (lookKind? >>= f') where
  alike {s s'} hs := by
    rw [run_bind, run_bind, run_lookKind?, run_lookKind?, bind_ok, bind_ok, S.kind hs]
    exact (h _).alike hs
  lost {s} hs := by
    rw [run_bind, run_lookKind?, bind_ok]
    exact (h _).lost hs

theorem respects_looking_bind {p : Kind → Bool} {f f' : Bool → Parsing α}
    (h : ∀ b, S.Respects (f b) (f' b)) :
    S.Respects (looking p >>= f) (looking p >>= f') where
  alike {s s'} hs := by
    rw [run_bind, run_bind, run_looking, run_looking, bind_ok, bind_ok, S.kind hs]
    exact (h _).alike hs
  lost {s} hs := by
    rw [run_bind, run_looking, bind_ok]
    exact (h _).lost hs

theorem respects_failSyntax (expectation : Expectation) :
    S.Respects (failSyntax expectation : Parsing α) (failSyntax expectation) :=
  ⟨fun h => .inr (S.failsSyntax expectation h), id⟩

theorem respects_failSemantic {cause cause' : SemanticCause}
    (h : CausesAlike S.names cause cause') :
    S.Respects (failSemantic cause : Parsing α) (failSemantic cause') :=
  ⟨fun hs => .inr (S.failsSemantic hs h), id⟩

theorem respects_tooDeep : S.Respects (throw .tooDeep : Parsing α) (throw .tooDeep) :=
  ⟨fun h => .inr (S.failsTooDeep h), id⟩

/-- Expecting a token, with what follows. What follows may depend on the text of a name. -/
theorem respects_expect_bind {kind : Kind} {f f' : Token → Parsing α}
    (h : ∀ token token', (kind = .ident → S.names token.text token'.text) →
      S.Respects (f token) (f' token')) :
    S.Respects (expect kind >>= f) (expect kind >>= f') where
  alike {s s'} hs := by
    have hkind := S.kind hs
    by_cases hlook : s.look.map Token.kind = some kind
    · rw [hlook] at hkind
      obtain ⟨token, htoken, rfl⟩ := Option.map_eq_some_iff.1 hlook
      obtain ⟨token', htoken', hkind'⟩ := Option.map_eq_some_iff.1 hkind.symm
      rw [run_expect_bind htoken, ← hkind', run_expect_bind htoken']
      exact (S.moves.bind fun _ => h token token' (S.name hs htoken htoken')).alike hs
    · rw [run_bind, run_bind, run_expect_of_ne hlook, run_expect_of_ne (hkind ▸ hlook)]
      exact .inr (S.failsSyntax _ hs)
  lost {s} hs := by
    by_cases hlook : s.look.map Token.kind = some kind
    · obtain ⟨token, htoken, rfl⟩ := Option.map_eq_some_iff.1 hlook
      -- Some token has a text like this one's, so what follows is alike for the two.
      obtain ⟨name, hname⟩ := S.total token.text
      rw [run_expect_bind htoken]
      exact (S.moves.bind fun _ => h token (.ident name) fun _ => hname).lost hs
    · rw [run_bind, run_expect_of_ne hlook]
      exact hs

/-! ### Loops -/

variable {p : Kind → Bool} {step : Kind → α → Parsing α}

theorem lost_whileLooking (hstep : Advances p step)
    (h : ∀ kind a, S.Respects (step kind a) (step kind a)) (a : α) {s : Parser}
    (hs : S.lost s) : S.lost (finalState ((whileLooking p a step).run s)) := by
  induction hn : s.ahead.length using Nat.strong_induction_on generalizing s a with
  | _ n ih =>
    cases hlooking : (s.look.map Token.kind).any p with
    | false =>
      rw [whileLooking_run_of_not hlooking]
      exact hs
    | true =>
      obtain ⟨token, hlook, hp⟩ := looking_iff.1 hlooking
      rw [whileLooking_run hstep hlook hp]
      refine Likeness.lost_bind ((h token.kind a).lost hs) fun b t hrun ht => ?_
      exact ih _ (hn ▸ hstep token a s b t hlook hp hrun) b ht rfl

/-- A loop whose step is alike in two runs takes the same turns in both. -/
theorem respects_whileLooking (hstep : Advances p step)
    (h : ∀ kind a, S.Respects (step kind a) (step kind a)) (a : α) :
    S.Respects (whileLooking p a step) (whileLooking p a step) where
  alike {s s'} hs := by
    -- Both loops look at tokens of one kind in every turn; the first one's tokens run out.
    induction hn : s.ahead.length using Nat.strong_induction_on generalizing s s' a with
    | _ n ih =>
      have hkind := S.kind hs
      cases hlooking : (s.look.map Token.kind).any p with
      | false =>
        rw [whileLooking_run_of_not hlooking, whileLooking_run_of_not (hkind ▸ hlooking)]
        exact .inr ⟨rfl, hs⟩
      | true =>
        obtain ⟨token, hlook, hp⟩ := looking_iff.1 hlooking
        rw [hlook, Option.map_some] at hkind
        obtain ⟨token', hlook', hkind'⟩ := Option.map_eq_some_iff.1 hkind.symm
        rw [whileLooking_run hstep hlook hp, whileLooking_run hstep hlook' (hkind' ▸ hp), hkind']
        refine Likeness.results_bind ((h token.kind a).alike hs) (fun b t t' hrun ht => ?_)
          fun b t _ => ?_
        · exact ih _ (hn ▸ hstep token a s b t hlook hp hrun) b ht rfl
        · exact lost_whileLooking hstep h b
  lost := lost_whileLooking hstep h a

/-! ### Declarations -/

theorem respects_typeSpec : S.Respects typeSpec typeSpec := by
  refine respects_lookKind?_bind fun kind => ?_
  cases kind.bind Kind.declaredType? with
  | none => exact respects_failSyntax _
  | some ty => exact S.moves.bind fun _ => .pure ty

theorem respects_declaredName (ty : Ty) : S.Respects (declaredName ty) (declaredName ty) :=
  respects_expect_bind fun _ _ hname => S.declares ty (hname rfl)

theorem respects_identList (ty : Ty) : S.Respects (identList ty) (identList ty) := by
  refine (respects_declaredName ty).bind fun _ => ?_
  refine respects_whileLooking (advances_identStep ty) (fun _ _ => ?_) ()
  exact respects_expect_bind fun _ _ _ => respects_declaredName ty

theorem respects_decl : S.Respects decl decl := by
  refine respects_typeSpec.bind fun ty => ?_
  refine respects_expect_bind fun _ _ _ => ?_
  refine (respects_identList ty).bind fun _ => ?_
  exact respects_expect_bind fun _ _ _ => .pure ()

theorem respects_optionalDecls : S.Respects optionalDecls optionalDecls := by
  refine respects_looking_bind fun b => ?_
  cases b with
  | false => exact .pure ()
  | true =>
    exact respects_decl.bind fun _ =>
      respects_whileLooking advances_decl (fun _ _ => respects_decl) ()

/-! ### Expressions -/

theorem respects_arithmetic (left right : Ty) :
    S.Respects (arithmetic left right) (arithmetic left right) := by
  simp only [arithmetic]
  split
  · exact respects_failSemantic (.arithmetic left right)
  · exact .pure _

theorem respects_binary (op : Kind) (left right : Ty) :
    S.Respects (binary op left right) (binary op left right) := by
  rw [binary]
  split
  · exact .pure _
  · exact respects_arithmetic left right

theorem respects_requireBool (ty : Ty) (what : String) :
    S.Respects (requireBool ty what) (requireBool ty what) := by
  rw [requireBool]
  split
  · exact .pure _
  · exact respects_failSemantic (.notBool what ty)

theorem respects_constant : S.Respects constant constant := by
  refine respects_lookKind?_bind fun kind => ?_
  cases kind.bind Kind.constantType? with
  | none => exact respects_failSyntax _
  | some ty => exact S.moves.bind fun _ => .pure ty

variable {inner : Parsing Ty}

theorem respects_factor (hinner : S.Respects inner inner) :
    S.Respects (factor inner) (factor inner) := by
  refine respects_lookKind?_bind fun kind => ?_
  split
  · exact respects_expect_bind fun _ _ hname => S.looksUp (hname rfl)
  · refine respects_expect_bind fun _ _ _ => hinner.bind fun ty => ?_
    exact respects_expect_bind fun _ _ _ => .pure ty
  · split
    · exact respects_constant
    · exact respects_failSyntax _
  · exact respects_failSyntax _

theorem respects_factorA (hinner : S.Respects inner inner) :
    S.Respects (factorA inner) (factorA inner) := by
  refine respects_lookKind?_bind fun kind => ?_
  split
  · refine S.moves.bind fun _ => (respects_factor hinner).bind fun ty => ?_
    exact (respects_requireBool ty _).bind fun _ => .pure _
  · refine S.moves.bind fun _ => (respects_factor hinner).bind fun ty => ?_
    split
    · exact .pure ty
    · exact respects_failSemantic (.negation ty)
  · exact respects_factor hinner

/-- A chain takes the same operands in two runs. -/
theorem respects_chain {isOp : Kind → Bool} {operand : Parsing Ty}
    {L : Language Terminal} (hreads : Reads L operand) (h : S.Respects operand operand) :
    S.Respects (chain isOp operand) (chain isOp operand) := by
  refine h.bind fun first => ?_
  refine respects_whileLooking (advances_chainStep hreads) (fun op left => ?_) first
  exact S.moves.bind fun _ => h.bind fun right => respects_binary op left right

variable (hreads : Reads (ExprForm.language .expression) inner)
include hreads

theorem respects_simpleExpr (hinner : S.Respects inner inner) :
    S.Respects (simpleExpr inner) (simpleExpr inner) :=
  respects_chain (reads_term hreads)
    (respects_chain (reads_factorA hreads) (respects_factorA hinner))

theorem respects_expression (hinner : S.Respects inner inner) :
    S.Respects (expression inner) (expression inner) := by
  refine (respects_simpleExpr hreads hinner).bind fun left => ?_
  refine respects_looking_bind fun b => ?_
  cases b with
  | false => exact .pure left
  | true =>
    refine S.moves.bind fun _ => (respects_simpleExpr hreads hinner).bind fun right => ?_
    split
    · exact .pure _
    · exact respects_failSemantic (.relation left right)

omit hreads

theorem respects_parenthesized (budget : Nat) :
    S.Respects (parenthesized budget) (parenthesized budget) := by
  induction budget using parenthesized.induct with
  | case1 budget ih => exact respects_expression (reads_parenthesized budget) ih
  | case2 budget h =>
    rw [parenthesized]
    · exact respects_tooDeep
    · exact h

/-! ### Statements -/

/-- The nested parts of a statement are alike in two runs. -/
structure NestedRespects (S : Simulation) (nested : Nested) : Prop where
  reads : NestedReads nested
  inner : S.Respects nested.inner nested.inner
  body (kind : BodyKind) : S.Respects (nested.body kind) (nested.body kind)

section Nested

variable {nested : Nested} (hnested : NestedRespects S nested)
include hnested

theorem respects_condition_bind {what : String} {f : Unit → Parsing α}
    (hf : ∀ u, S.Respects (f u) (f u)) :
    S.Respects (do let ty ← condition nested.inner; let u ← requireBool ty what; f u)
      (do let ty ← condition nested.inner; let u ← requireBool ty what; f u) := by
  refine (respects_expression hnested.reads.inner hnested.inner).bind fun ty => ?_
  exact (respects_requireBool ty what).bind hf

theorem respects_ifStmt : S.Respects (ifStmt nested) (ifStmt nested) := by
  have hend : S.Respects (do let _ ← expect .kwEnd) (do let _ ← expect .kwEnd) :=
    respects_expect_bind fun _ _ _ => .pure ()
  refine respects_expect_bind fun _ _ _ => respects_condition_bind hnested fun _ => ?_
  refine respects_expect_bind fun _ _ _ => (hnested.body .ifThen).bind fun _ => ?_
  refine respects_looking_bind fun b => ?_
  cases b with
  | false => exact hend
  | true => exact respects_expect_bind fun _ _ _ => (hnested.body .ifElse).bind fun _ => hend

theorem respects_whileStmt : S.Respects (whileStmt nested) (whileStmt nested) := by
  refine respects_expect_bind fun _ _ _ => respects_condition_bind hnested fun _ => ?_
  refine respects_expect_bind fun _ _ _ => (hnested.body .whileBody).bind fun _ => ?_
  exact respects_expect_bind fun _ _ _ => .pure ()

theorem respects_repeatStmt : S.Respects (repeatStmt nested) (repeatStmt nested) := by
  refine respects_expect_bind fun _ _ _ => (hnested.body .repeatBody).bind fun _ => ?_
  refine respects_expect_bind fun _ _ _ => ?_
  refine (respects_expression hnested.reads.inner hnested.inner).bind fun ty => ?_
  exact respects_requireBool ty _

omit hnested in
theorem respects_readStmt : S.Respects readStmt readStmt := by
  refine respects_expect_bind fun _ _ _ => respects_expect_bind fun _ _ _ => ?_
  refine respects_expect_bind fun _ _ hname => (S.looksUp (hname rfl)).bind fun _ => ?_
  exact respects_expect_bind fun _ _ _ => .pure ()

theorem respects_assignStmt : S.Respects (assignStmt nested.inner) (assignStmt nested.inner) := by
  refine respects_expect_bind fun token token' hname => ?_
  refine (S.looksUp (hname rfl)).bind fun target => respects_expect_bind fun _ _ _ => ?_
  refine (respects_simpleExpr hnested.reads.inner hnested.inner).bind fun value => ?_
  split
  · exact .pure ()
  · exact respects_failSemantic (.assignment target value (hname rfl))

theorem respects_writeStmt : S.Respects (writeStmt nested.inner) (writeStmt nested.inner) := by
  have hwritable : S.Respects (writable nested.inner) (writable nested.inner) := by
    refine respects_looking_bind fun b => ?_
    cases b with
    | false =>
      exact (respects_simpleExpr hnested.reads.inner hnested.inner).bind fun _ => .pure ()
    | true => exact respects_expect_bind fun _ _ _ => .pure ()
  refine respects_expect_bind fun _ _ _ => respects_expect_bind fun _ _ _ => ?_
  refine hwritable.bind fun _ => ?_
  exact respects_expect_bind fun _ _ _ => .pure ()

theorem respects_stmt : S.Respects (stmt nested) (stmt nested) := by
  refine respects_lookKind?_bind fun kind => ?_
  split
  · exact respects_failSyntax _
  · exact respects_assignStmt hnested
  · exact respects_ifStmt hnested
  · exact respects_whileStmt hnested
  · exact respects_repeatStmt hnested
  · exact respects_readStmt
  · exact respects_writeStmt hnested
  · exact respects_failSyntax _

theorem respects_stmtList : S.Respects (stmtList nested) (stmtList nested) := by
  refine (respects_stmt hnested).bind fun _ => ?_
  refine respects_whileLooking (advances_stmtStep hnested.reads) (fun _ _ => ?_) ()
  exact respects_expect_bind fun _ _ _ => respects_stmt hnested

theorem respects_block (hint : Option String) :
    S.Respects (block nested hint) (block nested hint) := by
  refine (S.enters hint).bind fun _ => respects_optionalDecls.bind fun _ => ?_
  exact (respects_stmtList hnested).bind fun _ => S.leaves

end Nested

theorem respects_body (budget : Nat) (kind : BodyKind) :
    S.Respects (body budget kind) (body budget kind) := by
  induction budget using body.induct generalizing kind with
  | case1 budget ih =>
    exact respects_block ⟨nestedReads budget, respects_parenthesized budget, ih⟩ _
  | case2 budget h =>
    rw [body]
    · exact respects_tooDeep
    · exact h

/-- What is read as a program is alike in two runs. -/
theorem respects_program (budget : Nat) :
    S.Respects (program (Parsing.nested budget)) (program (Parsing.nested budget)) := by
  refine respects_expect_bind fun _ _ _ => respects_optionalDecls.bind fun _ => ?_
  refine respects_expect_bind fun _ _ _ => ?_
  refine (respects_stmtList ⟨nestedReads budget, respects_parenthesized budget,
    respects_body budget⟩).bind fun _ => ?_
  exact respects_expect_bind fun _ _ _ => .pure ()

/-- The whole check is alike in two runs. -/
theorem respects_check : S.Respects check check := by
  refine (S.moves.bind fun _ => S.enters _).bind fun _ => ?_
  -- Whether anything is left over is the one thing asked of the whole state.
  refine (respects_program nestingBudget).bind fun _ => ⟨fun {s s'} hs => ?_, fun {s} hs => ?_⟩
  · have hsome : s.look.isSome = s'.look.isSome := by
      rw [← Option.isSome_map (f := Token.kind), S.kind hs, Option.isSome_map]
    rw [run_bind, run_bind, EStateM.run_get, EStateM.run_get, bind_ok, bind_ok, hsome]
    cases s'.look.isSome with
    | false => exact S.leaves.alike hs
    | true => exact .inr (S.failsSyntax _ hs)
  · rw [run_bind, EStateM.run_get, bind_ok]
    cases s.look.isSome with
    | false => exact S.leaves.lost hs
    | true => exact hs

end Simulation

end Parsing

end MiniPascal
