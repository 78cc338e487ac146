import MiniPascal.Proofs.Parser.Judgement

/-!
# Reading a phrase in its place

A procedure that reads a phrase with nothing after it reads it alike where more tokens follow,
and answers the same: it looks at a token of its phrase after another, and at what follows only
when it has come to the end. There it may ask whether an operator follows, and goes on if one
does, so none must (`Parsing.Local`).

This holds of each procedure for expressions with the operators that it goes on with
(`local_procedure`). As for what is read and judged, it is put together along the procedures.
Where one of them is followed by another that needs a token, the end of the phrase is not
reached in between (`Local.before_expect`).

* `Local.run_in_place`: what is read alone is read in its place.
-/

namespace MiniPascal

open Parsing

/-- Where a phrase stands: in which environment, before which tokens, and which failure ends
    those. A failure right after the phrase would keep its last token from being passed. -/
structure Surroundings where
  env : Env
  rest : List Token
  failure? : Option ScanFailure
  ends : rest = [] → failure? = none

/-- The place of what stands before further tokens. -/
def Surroundings.before (around : Surroundings) (tokens : List Token) : Surroundings where
  env := around.env
  rest := tokens ++ around.rest
  failure? := around.failure?
  ends hnil := around.ends (List.append_eq_nil_iff.1 hnil).2

/-- A parser before a phrase in its place. -/
structure Parser.In (s : Parser) (around : Surroundings) (tokens : List Token) : Prop where
  ahead : s.ahead = tokens ++ around.rest
  failure : s.failure? = around.failure?
  env : s.symbols.env = around.env

theorem Parser.in_before_iff {s : Parser} {around : Surroundings} {u v : List Token} :
    s.In (around.before v) u ↔ s.In around (u ++ v) := by
  have hrest : u ++ (around.before v).rest = u ++ v ++ around.rest :=
    (List.append_assoc u v around.rest).symm
  exact ⟨fun h => ⟨h.ahead.trans hrest, h.failure, h.env⟩,
    fun h => ⟨h.ahead.trans hrest.symm, h.failure, h.env⟩⟩

/-- Of two parsers the first has before it, alone, what the second has in its place. -/
structure Parser.Placed (around : Surroundings) (s s' : Parser) : Prop where
  alone : s.At around.env s.ahead
  placed : s'.In around s.ahead

namespace Parser.Placed

variable {around : Surroundings} {s s' : Parser}

theorem look (h : s.Placed around s') {token : Token} (hlook : s.look = some token) :
    s'.look = some token := by
  rw [← Parser.head?_ahead, h.placed.ahead, Parser.ahead_of_look hlook]
  rfl

/-- Whether an operator follows is told by the phrase alike, if at its end none does. -/
theorem looking (h : s.Placed around s') {p q : Kind → Bool}
    (hqp : ∀ kind, q kind = true → p kind = true) (hend : s.look = none → Stops p around.rest) :
    (s'.look.map Token.kind).any q = (s.look.map Token.kind).any q := by
  cases hlook : s.look with
  | some token => rw [h.look hlook]
  | none =>
    have hstops : Stops q around.rest := (hend hlook).mono hqp
    rw [← Parser.head?_ahead, h.placed.ahead, Parser.ahead, hlook]
    exact hstops

end Parser.Placed

namespace Parsing

variable {α β : Type} {p q : Kind → Bool}

/-- What succeeds alone does the same in its place. If it comes to the end of what it has alone,
    nothing must follow that goes on with it. -/
def Continues (p : Kind → Bool) (m : Parsing α) (s : Parser) : Prop :=
  ∀ ⦃around : Surroundings⦄ ⦃s' : Parser⦄ ⦃a : α⦄ ⦃t : Parser⦄, s.Placed around s' →
    m.run s = .ok a t → (t.look = none → Stops p around.rest) →
    ∃ t', m.run s' = .ok a t' ∧ t.Placed around t'

/-- At the end of what there is to read, a procedure stays there. -/
def Stays (m : Parsing α) : Prop :=
  ∀ ⦃s : Parser⦄ ⦃a : α⦄ ⦃t : Parser⦄, s.look = none → m.run s = .ok a t → t.look = none

/-- A procedure is local: it succeeds alike wherever its phrase stands. -/
structure Local (p : Kind → Bool) (m : Parsing α) : Prop where
  continues (s : Parser) : Continues p m s
  stays : Stays m

/-- A procedure is local where a token is looked at. -/
def LocalLooking (p : Kind → Bool) (m : Parsing α) : Prop :=
  ∀ s token, s.look = some token → Continues p m s

/-- A procedure does not succeed where nothing is left to read. -/
def NeedsToken (m : Parsing α) : Prop :=
  ∀ s a t, s.look = none → m.run s ≠ .ok a t

theorem Local.looking {m : Parsing α} (h : Local p m) : LocalLooking p m :=
  fun s _ _ => h.continues s

theorem Local.mono {m : Parsing α} (h : Local q m)
    (hqp : ∀ kind, q kind = true → p kind = true) : Local p m where
  continues s _ _ _ _ hs hrun hend := h.continues s hs hrun fun hlook => (hend hlook).mono hqp
  stays := h.stays

/-! ### Sequences -/

theorem Continues.bind {m : Parsing α} {f : α → Parsing β} {s : Parser} (h : Continues p m s)
    (hf : ∀ a t, m.run s = .ok a t → Continues p (f a) t) (hstays : ∀ a, Stays (f a)) :
    Continues p (m >>= f) s := by
  intro around s' b t hs hrun hend
  obtain ⟨a, s₁, hm, hfa⟩ := exists_of_run_bind hrun
  -- What comes to the end in between is at the end at last.
  obtain ⟨s₁', hm', hs₁⟩ := h hs hm fun hlook => hend (hstays a hlook hfa)
  obtain ⟨t', hfa', ht⟩ := hf a s₁ hm hs₁ hfa hend
  exact ⟨t', by rw [run_bind, hm', bind_ok, hfa'], ht⟩

theorem LocalLooking.bind {m : Parsing α} {f : α → Parsing β} (h : LocalLooking p m)
    (hf : ∀ a, Local p (f a)) : LocalLooking p (m >>= f) :=
  fun s token hlook =>
    (h s token hlook).bind (fun a t _ => (hf a).continues t) fun a => (hf a).stays

theorem Local.bind {m : Parsing α} {f : α → Parsing β} (h : Local p m)
    (hf : ∀ a, Local p (f a)) : Local p (m >>= f) where
  continues s := (h.continues s).bind (fun a t _ => (hf a).continues t) fun a => (hf a).stays
  stays s b t hlook hrun := by
    obtain ⟨a, s₁, hm, hfa⟩ := exists_of_run_bind hrun
    exact (hf a).stays (h.stays hlook hm) hfa

/-- Before what needs a token, a procedure does not come to the end of the phrase, whatever it
    might go on with there. -/
theorem Local.before_expect {m : Parsing α} {f : α → Parsing β} (h : Local q m)
    (hf : ∀ a, Local p (f a)) (hneeds : ∀ a, NeedsToken (f a)) : Local p (m >>= f) where
  continues s := by
    intro around s' b t hs hrun hend
    obtain ⟨a, s₁, hm, hfa⟩ := exists_of_run_bind hrun
    obtain ⟨s₁', hm', hs₁⟩ := h.continues s hs hm fun hlook => absurd hfa (hneeds a s₁ b t hlook)
    obtain ⟨t', hfa', ht⟩ := (hf a).continues s₁ hs₁ hfa hend
    exact ⟨t', by rw [run_bind, hm', bind_ok, hfa'], ht⟩
  stays s b t hlook hrun := by
    obtain ⟨a, s₁, hm, hfa⟩ := exists_of_run_bind hrun
    exact absurd hfa (hneeds a s₁ b t (h.stays hlook hm))

theorem local_pure (a : α) : Local p (pure a) where
  continues s := by
    rintro around s' _ _ hs ⟨⟩ -
    exact ⟨s', rfl, hs⟩
  stays := by
    rintro s _ _ hlook ⟨⟩
    exact hlook

/-! A procedure that never succeeds is local. -/

theorem local_failSyntax (expectation : Expectation) :
    Local p (failSyntax expectation : Parsing α) where
  continues _ := by rintro _ _ _ _ - ⟨⟩
  stays := by rintro _ _ _ - ⟨⟩

theorem local_failSemantic (cause : SemanticCause) : Local p (failSemantic cause : Parsing α) where
  continues _ := by rintro _ _ _ _ - ⟨⟩
  stays := by rintro _ _ _ - ⟨⟩

theorem local_tooDeep : Local p (throw .tooDeep : Parsing α) where
  continues _ := by rintro _ _ _ _ - ⟨⟩
  stays := by rintro _ _ _ - ⟨⟩

theorem needsToken_failSyntax (expectation : Expectation) :
    NeedsToken (failSyntax expectation : Parsing α) := by
  rintro _ _ _ - ⟨⟩

/-! ### Tokens -/

theorem local_lookKind?_bind {f : Option Kind → Parsing α} (hnone : NeedsToken (f none))
    (hsome : ∀ kind, LocalLooking p (f (some kind))) : Local p (lookKind? >>= f) where
  continues s := by
    intro around s' a t hs hrun hend
    rw [run_bind, run_lookKind?, bind_ok] at hrun
    cases hlook : s.look with
    | none =>
      rw [hlook] at hrun
      exact absurd hrun (hnone s a t hlook)
    | some token =>
      rw [hlook] at hrun
      rw [run_bind, run_lookKind?, bind_ok, hs.look hlook]
      exact hsome token.kind s token hlook hs hrun hend
  stays s a t hlook hrun := by
    rw [run_bind, run_lookKind?, bind_ok, hlook] at hrun
    exact absurd hrun (hnone s a t hlook)

theorem local_looking_bind {f : Bool → Parsing α} (hqp : ∀ kind, q kind = true → p kind = true)
    (hfalse : Local p (f false)) (htrue : LocalLooking p (f true)) :
    Local p (looking q >>= f) where
  continues s := by
    intro around s' a t hs hrun hend
    rw [run_bind, run_looking, bind_ok] at hrun ⊢
    cases hlooking : (s.look.map Token.kind).any q with
    | false =>
      rw [hlooking] at hrun
      rw [hs.looking hqp fun hlook => hend (hfalse.stays hlook hrun), hlooking]
      exact hfalse.continues s hs hrun hend
    | true =>
      obtain ⟨token, hlook, -⟩ := looking_iff.1 hlooking
      rw [hlooking] at hrun
      rw [hs.looking hqp fun hnone => absurd (hlook.symm.trans hnone) (Option.some_ne_none _),
        hlooking]
      exact htrue s token hlook hs hrun hend
  stays s a t hlook hrun := by
    rw [run_bind, run_looking, bind_ok, hlook] at hrun
    exact hfalse.stays hlook hrun

/-- A step moves past a token unless what comes next fails to be scanned. -/
theorem exists_run_move_of_ahead {s : Parser} {token : Token} {next : List Token}
    (h : s.ahead = token :: next) (hend : next = [] → s.failure? = none) :
    ∃ t, move.run s = .ok () t ∧ t.ahead = next ∧ t.failure? = s.failure? ∧
      t.symbols = s.symbols := by
  have hlook : s.look = some token := by rw [← Parser.head?_ahead, h]; rfl
  rw [Parser.ahead_of_look hlook] at h
  obtain rfl := (List.cons.inj h).2
  have hfailure : s.failure? = Scan.failure? s.pending := by rw [Parser.failure?, hlook]
  rw [hfailure] at hend ⊢
  rcases hpending : s.pending with _ | ⟨⟨failure | _ | next, lexer⟩, pending⟩
  · exact ⟨_, run_move_nil hpending, rfl, rfl, rfl⟩
  · rw [hpending] at hend
    cases hend rfl
  · exact ⟨_, run_move_ok hpending, rfl, rfl, rfl⟩
  · exact ⟨_, run_move_ok hpending, rfl, rfl, rfl⟩

theorem exists_run_move {s : Parser} {around : Surroundings} {token : Token} {u : List Token}
    (h : s.In around (token :: u)) : ∃ t, move.run s = .ok () t ∧ t.In around u := by
  obtain ⟨t, hrun, hahead, hfailure, hsymbols⟩ := exists_run_move_of_ahead h.ahead fun hnil =>
    h.failure.trans (around.ends (List.append_eq_nil_iff.1 hnil).2)
  refine ⟨t, hrun, hahead, hfailure.trans h.failure, ?_⟩
  rw [hsymbols, h.env]

theorem local_move : LocalLooking p move := by
  intro s token hlook around s' a t hs hrun _
  have hahead := Parser.ahead_of_look hlook
  obtain ⟨t₁, hrun₁, hahead₁, hfailure, hsymbols⟩ :=
    exists_run_move_of_ahead hahead fun _ => hs.alone.failure
  obtain ⟨-, rfl⟩ := EStateM.Result.ok.inj (hrun.symm.trans hrun₁)
  obtain ⟨t', hrun', ht'⟩ := exists_run_move (hahead ▸ hs.placed)
  refine ⟨t', hrun', ⟨rfl, hfailure.trans hs.alone.failure, ?_⟩, hahead₁ ▸ ht'⟩
  rw [hsymbols, hs.alone.env]

theorem needsToken_expect_bind (kind : Kind) (f : Token → Parsing α) :
    NeedsToken (expect kind >>= f) := by
  intro s a t hlook hrun
  obtain ⟨token, s₁, hexpect, -⟩ := exists_of_run_bind hrun
  rw [run_expect_of_ne (by rw [hlook]; simp)] at hexpect
  cases hexpect

theorem local_expect (kind : Kind) : Local p (expect kind) where
  continues s := by
    intro around s' found t hs hrun hend
    by_cases h : s.look.map Token.kind = some kind
    · obtain ⟨token, hlook, rfl⟩ := Option.map_eq_some_iff.1 h
      rw [run_expect hlook, ← run_bind] at hrun
      rw [run_expect (hs.look hlook), ← run_bind]
      exact (local_move.bind fun _ => local_pure token) s token hlook hs hrun hend
    · rw [run_expect_of_ne h] at hrun
      cases hrun
  stays s found t hlook hrun := by
    rw [run_expect_of_ne (by rw [hlook]; simp)] at hrun
    cases hrun

/-! ### Names and types -/

theorem local_lookup (name : String) : Local p (lookup name) where
  continues s := by
    intro around s' ty t hs hrun _
    obtain ⟨hfind, rfl⟩ := run_lookup_eq_ok_iff.1 hrun
    -- Both tables have the name, with the same type, since the environment tells it.
    rw [← Option.map_eq_some_iff, ← SymbolTable.find?_env, hs.alone.env, ← hs.placed.env,
      SymbolTable.find?_env, Option.map_eq_some_iff] at hfind
    refine ⟨_, run_lookup_eq_ok_iff.2 ⟨hfind, rfl⟩, ⟨rfl, hs.alone.failure, ?_⟩,
      ⟨hs.placed.ahead, hs.placed.failure, ?_⟩⟩
    · rw [answered, SymbolTable.table_lookup, hs.alone.env]
    · rw [answered, SymbolTable.table_lookup, hs.placed.env]
  stays s ty t hlook hrun := by
    obtain ⟨-, rfl⟩ := run_lookup_eq_ok_iff.1 hrun
    exact hlook

theorem local_binary (op : Kind) (left right : Ty) : Local p (binary op left right) := by
  rw [binary]
  split
  · exact local_pure _
  · simp only [arithmetic]
    split
    · exact local_failSemantic _
    · exact local_pure _

theorem local_requireBool (ty : Ty) (what : String) : Local p (requireBool ty what) := by
  rw [requireBool]
  split
  · exact local_pure _
  · exact local_failSemantic _

/-! ### Loops -/

/-- A loop is local if its step is, with the operators it goes on with. -/
theorem local_whileLooking {step : Kind → α → Parsing α} (hadvances : Advances q step)
    (hqp : ∀ kind, q kind = true → p kind = true)
    (hstep : ∀ op a, LocalLooking p (step op a)) (a : α) : Local p (whileLooking q a step) := by
  have hstays (a : α) : Stays (whileLooking q a step) := by
    intro s b t hlook hrun
    rw [whileLooking_run_of_not (by rw [hlook]; rfl)] at hrun
    cases hrun
    exact hlook
  refine ⟨fun s => ?_, hstays a⟩
  -- Every turn leaves fewer tokens.
  induction hn : s.ahead.length using Nat.strong_induction_on generalizing s a with
  | _ n ih =>
    intro around s' b t hs hrun hend
    cases hlooking : (s.look.map Token.kind).any q with
    | false =>
      rw [whileLooking_run_of_not hlooking] at hrun
      cases hrun
      exact ⟨s', whileLooking_run_of_not ((hs.looking hqp hend).trans hlooking) a, hs⟩
    | true =>
      obtain ⟨token, hlook, hq⟩ := looking_iff.1 hlooking
      rw [whileLooking_run hadvances hlook hq, ← run_bind] at hrun
      rw [whileLooking_run hadvances (hs.look hlook) hq, ← run_bind]
      refine (hstep token.kind a s token hlook).bind (fun b t hturn => ?_) hstays hs hrun hend
      exact ih _ (hn ▸ hadvances token a s b t hlook hq hturn) b t rfl

/-- A chain is local if its operands are. -/
theorem local_chain {operand : Parsing Ty} (hadvances : Advances q (chainStep operand))
    (hqp : ∀ kind, q kind = true → p kind = true) (h : Local p operand) :
    Local p (chain q operand) :=
  h.bind <| local_whileLooking hadvances hqp fun op left =>
    local_move.bind fun _ => h.bind fun right => local_binary op left right

/-! ### Expressions -/

theorem local_constant : Local p constant := by
  refine local_lookKind?_bind (needsToken_failSyntax _) fun kind => ?_
  split
  · exact local_move.bind fun _ => local_pure _
  · exact (local_failSyntax _).looking

section

variable {inner : Parsing Ty} (hinner : Local Kind.isOperator inner)
include hinner

theorem local_factor : Local p (factor inner) := by
  refine local_lookKind?_bind (needsToken_failSyntax _) fun kind => ?_
  split
  · exact ((local_expect _).bind fun token => local_lookup token.text).looking
  · -- What the parentheses hold ends before the closing one.
    refine ((local_expect _).bind fun _ => hinner.before_expect (fun ty => ?_) fun ty => ?_).looking
    · exact (local_expect _).bind fun _ => local_pure ty
    · exact needsToken_expect_bind _ _
  · split
    · exact local_constant.looking
    · exact (local_failSyntax _).looking
  · exact (local_failSyntax _).looking

theorem local_factorA : Local p (factorA inner) := by
  have hfactor : Local p (factor inner) := local_factor hinner
  have hneeds : NeedsToken (factor inner) := by
    intro s ty t hlook hrun
    rw [factor, run_bind, run_lookKind?, bind_ok, hlook] at hrun
    cases hrun
  refine local_lookKind?_bind hneeds fun kind => ?_
  split
  · exact local_move.bind fun _ => hfactor.bind fun ty =>
      (local_requireBool ty _).bind fun _ => local_pure _
  · refine local_move.bind fun _ => hfactor.bind fun ty => ?_
    split
    · exact local_pure ty
    · exact local_failSemantic _
  · exact hfactor.looking

variable (hreads : Reads (ExprForm.language .expression) inner)
include hreads

theorem local_term : Local Kind.isMultiplicative (term inner) :=
  local_chain (advances_chainStep (reads_factorA hreads)) (fun _ h => h) (local_factorA hinner)

theorem local_simpleExpr : Local (ExprForm.operators .simpleExpr) (simpleExpr inner) :=
  local_chain (advances_chainStep (reads_term hreads)) (fun _ h => Bool.or_eq_true_iff.2 (.inr h))
    ((local_term hinner hreads).mono fun _ h => Bool.or_eq_true_iff.2 (.inl h))

theorem local_expression : Local Kind.isOperator (expression inner) := by
  have hsimple : Local Kind.isOperator (simpleExpr inner) :=
    (local_simpleExpr hinner hreads).mono fun _ => ExprForm.isOperator_of_operators
  refine hsimple.bind fun left => local_looking_bind (fun _ h => ?_) (local_pure left) ?_
  · exact Bool.or_eq_true_iff.2 (.inr h)
  · refine local_move.bind fun _ => hsimple.bind fun right => ?_
    split
    · exact local_pure _
    · exact local_failSemantic _

end

theorem local_parenthesized (budget : Nat) : Local Kind.isOperator (parenthesized budget) := by
  induction budget using parenthesized.induct with
  | case1 budget ih => exact local_expression ih (reads_parenthesized budget)
  | case2 budget h =>
    rw [parenthesized]
    · exact local_tooDeep
    · exact h

/-- Every expression is read in its place as it is alone. -/
theorem local_procedure (form : ExprForm) (budget : Nat) :
    Local form.operators (form.procedure (parenthesized budget)) := by
  have hinner := local_parenthesized budget
  have hreads := reads_parenthesized budget
  cases form with
  | factor => exact local_factor hinner
  | factorA => exact local_factorA hinner
  | term => exact local_term hinner hreads
  | simpleExpr => exact local_simpleExpr hinner hreads
  | expression => exact local_expression hinner hreads

/-! ### Phrases read alone -/

/-- In an environment, a procedure reads the given tokens alone, to their end, and answers. -/
def ReadsAlone (m : Parsing α) (Γ : Env) (tokens : List Token) (a : α) : Prop :=
  ∃ s t : Parser, s.At Γ tokens ∧ m.run s = .ok a t ∧ t.look = none

/-- A local procedure answers in its place what it answers for the same tokens alone. -/
theorem Local.run_in_place {m : Parsing α} (h : Local p m) {around : Surroundings}
    {tokens : List Token} {a : α} {s : Parser} (hs : s.In around tokens)
    (halone : ReadsAlone m around.env tokens a) (hstops : Stops p around.rest) :
    ∃ t, m.run s = .ok a t ∧ t.In around [] := by
  obtain ⟨s₀, t₀, hs₀, hrun, hlook⟩ := halone
  have hplaced : s₀.Placed around s := by
    constructor
    · exact hs₀.ahead ▸ hs₀
    · exact hs₀.ahead ▸ hs
  obtain ⟨t, hrun', ht⟩ := h.continues s₀ hplaced hrun fun _ => hstops
  have hnil : t₀.ahead = [] := by rw [Parser.ahead, hlook]
  exact ⟨t, hrun', hnil ▸ ht.placed⟩

end Parsing

end MiniPascal
