import MiniPascal.Proofs.Parser.Invariant
import MiniPascal.Proofs.SymbolTable

/-!
# What procedures do to the symbol table

The effect of a procedure on the symbol table goes with the word that it reads: when it
succeeds it has moved past a word, and the tables before and after are related as the tree of
the word says (`Parsing.Does`). Expressions, and statements without bodies, leave the table
alone; declarations are taken into the innermost scope; and statements are noted, with the
bodies within them.

The effects of a sequence of procedures are put together one by one (`Does.bind`), as are the
languages that they read.
-/

namespace MiniPascal

namespace Parsing

variable {α β : Type}

/-- What an answer, the word that has been read and the symbol tables before and after it have
    to do with each other. -/
abbrev Effect (α : Type) :=
  α → List Terminal → SymbolTable → SymbolTable → Prop

/-- When the procedure `m` succeeds it has moved past a word with the effect `E`. -/
def Does (E : Effect α) (m : Parsing α) : Prop :=
  ∀ s a s', m.run s = .ok a s' →
    ∃ u, s.Passes u s' ∧ E a (u.map Token.terminal) s.symbols s'.symbols

/-- An effect and another one after it. -/
def Effect.seq (E : Effect α) (F : α → Effect β) : Effect β :=
  fun b w t t' => ∃ a v v' t₁, w = v ++ v' ∧ E a v t t₁ ∧ F a b v' t₁ t'

/-- The effect of reading a word of a language and leaving the table alone. -/
def Effect.reading (L : Language Terminal) : Effect α :=
  fun _ w t t' => w ∈ L ∧ t' = t

/-- An effect after a word of a language that leaves the table alone. -/
def Effect.after (L : Language Terminal) (E : Effect α) : Effect α :=
  fun a w t t' => ∃ v ∈ L, ∃ v', w = v ++ v' ∧ E a v' t t'

/-- An effect past a token of a kind. -/
def Effect.past (kind : Kind) (E : Effect α) : Effect α :=
  fun a w t t' => ∃ v, w = [.of kind] ++ v ∧ E a v t t'

namespace Does

variable {E E' : Effect α} {m : Parsing α}

theorem mono (h : Does E m) (hle : ∀ a w t t', E a w t t' → E' a w t t') : Does E' m :=
  fun s a s' hrun => (h s a s' hrun).imp fun _ hu => ⟨hu.1, hle _ _ _ _ hu.2⟩

theorem bind {F : α → Effect β} {f : α → Parsing β} (h : Does E m) (hf : ∀ a, Does (F a) (f a)) :
    Does (E.seq F) (m >>= f) := by
  intro s b s' hrun
  obtain ⟨a, s₁, hm, hfa⟩ := exists_of_run_bind hrun
  obtain ⟨u, hu, hE⟩ := h s a s₁ hm
  obtain ⟨v, hv, hF⟩ := hf a s₁ b s' hfa
  exact ⟨u ++ v, hu.trans hv, a, _, _, _, List.map_append, hE, hF⟩

variable {F : Effect β} {f : α → Parsing β}

theorem after {L : Language Terminal} (h : Does (.reading L) m) (hf : ∀ a, Does F (f a)) :
    Does (.after L F) (m >>= f) := by
  refine (h.bind hf).mono ?_
  rintro b _ t t' ⟨_, v, v', _, rfl, ⟨hv, rfl⟩, hF⟩
  exact ⟨v, hv, v', rfl, hF⟩

/-- A procedure that reads nothing and leaves the table alone adds nothing to the effect of what
    comes after it. -/
theorem skip (h : Does (.reading 1) m) (hf : ∀ a, Does F (f a)) : Does F (m >>= f) := by
  refine (h.after hf).mono ?_
  rintro b _ t t' ⟨_, rfl, v, rfl, hF⟩
  exact hF

end Does

theorem does_pure (a : α) : Does (fun b w t t' => b = a ∧ w = [] ∧ t' = t) (pure a) := by
  rintro s _ _ ⟨⟩
  exact ⟨[], .refl s, rfl, rfl, rfl⟩

/-- A procedure that never succeeds has every effect. -/
theorem does_failSyntax {E : Effect α} (expectation : Expectation) :
    Does E (failSyntax expectation) := by
  rintro s _ _ ⟨⟩

theorem does_failSemantic {E : Effect α} (cause : SemanticCause) :
    Does E (failSemantic cause) := by
  rintro s _ _ ⟨⟩

theorem does_lookKind?_bind {E : Effect α} {f : Option Kind → Parsing α}
    (hf : ∀ kind, Does E (f kind)) : Does E (lookKind? >>= f) := by
  intro s a s' hrun
  rw [run_bind, run_lookKind?, bind_ok] at hrun
  exact hf _ s a s' hrun

theorem does_looking_bind {E : Effect α} {p : Kind → Bool} {f : Bool → Parsing α}
    (hf : ∀ b, Does E (f b)) : Does E (looking p >>= f) := by
  intro s a s' hrun
  rw [run_bind, run_looking, bind_ok] at hrun
  exact hf _ s a s' hrun

/-- The effects of the turns of a loop add up from the last one. -/
theorem does_whileLooking {p : Kind → Bool} {step : Kind → Unit → Parsing Unit}
    {E F : List Terminal → SymbolTable → SymbolTable → Prop} (hnil : ∀ t, F [] t t)
    (hcons : ∀ v w t t₁ t', E v t t₁ → F w t₁ t' → F (v ++ w) t t')
    (hstep : ∀ kind, Does (fun _ => E) (step kind ())) :
    Does (fun _ => F) (whileLooking p () step) := by
  have hdone : Does (fun _ => F) (pure () : Parsing Unit) :=
    (does_pure ()).mono fun _ _ t _ ⟨_, hw, ht⟩ => hw ▸ ht ▸ hnil t
  have hrepeat (fuel : Nat) : Does (fun _ => F) (repeatWhile p step fuel ()) := by
    induction fuel with
    | zero => exact hdone
    | succ fuel ih =>
      refine does_lookKind?_bind fun kind => ?_
      split
      · exact hdone
      · split
        · refine ((hstep _).bind fun _ => ih).mono ?_
          rintro _ _ t t' ⟨_, v, w, t₁, rfl, hE, hF⟩
          exact hcons v w t t₁ t' hE hF
        · exact hdone
  exact fun s => hrepeat _ s

/-! ### Procedures that leave the table alone -/

/-- The symbol table is a given one. -/
def tableInvariant (t : SymbolTable) : Invariant where
  holds s := s.symbols = t
  stops _ _ := True
  moves _ _ _ hs := Assertion.kept_move (fun _ => hs) (fun _ _ _ _ => hs) fun _ _ _ _ => trivial
  looksUp name s hs := by
    rw [lookup, run_bind]
    cases hr : (s.symbols.lookup name).result with
    | ok entry =>
      rw [run_onSymbols_ok hr, bind_ok]
      have hanswered : (answered s (s.symbols.lookup name)).symbols = t :=
        (SymbolTable.table_lookup _ _).trans hs
      cases entry with
      | none => trivial
      | some entry => exact hanswered
    | error refusal =>
      rw [run_onSymbols_error hr]
      cases refusal <;> trivial
  failsSyntax _ _ := trivial
  failsSemantic _ _ := trivial
  failsTooDeep _ := trivial

/-- A procedure does not change the symbol table. -/
def Spares (m : Parsing α) : Prop :=
  ∀ t, (tableInvariant t).Keeps m

theorem symbols_of_spares {m : Parsing α} {a : α} {s s' : Parser} (h : Spares m)
    (hrun : m.run s = .ok a s') : s'.symbols = s.symbols := by
  have hkept := h s.symbols s rfl
  rwa [hrun] at hkept

/-- The effect of a procedure that reads a language, from what its runs do to the table. -/
theorem does_of_run {L : Language Terminal} {E : Effect α} {m : Parsing α} (h : Reads L m)
    (hrun : ∀ s a s', m.run s = .ok a s' → ∀ w ∈ L, E a w s.symbols s'.symbols) : Does E m := by
  intro s a s' hm
  have hreads := h.run s
  rw [hm] at hreads
  obtain ⟨u, hu, hmem⟩ := hreads
  exact ⟨u, hu, hrun s a s' hm _ hmem⟩

theorem does_reading {L : Language Terminal} {m : Parsing α} (h : Reads L m) (hspares : Spares m) :
    Does (.reading L) m :=
  does_of_run h fun _ _ _ hrun _ hw => ⟨hw, symbols_of_spares hspares hrun⟩

theorem does_expect (kind : Kind) (h : kind ≠ .ident) :
    Does (.reading {[.of kind]}) (expect kind) :=
  does_reading (reads_expect kind h) fun _ => Invariant.keeps_expect kind

theorem does_expect_bind {F : Effect α} {f : Token → Parsing α} (kind : Kind) (h : kind ≠ .ident)
    (hf : ∀ token, Does F (f token)) : Does (.past kind F) (expect kind >>= f) := by
  refine ((does_expect kind h).after hf).mono ?_
  rintro b _ t t' ⟨_, rfl, v, rfl, hF⟩
  exact ⟨v, rfl, hF⟩

/-- The last token of a phrase. -/
theorem does_expect_last (kind : Kind) (h : kind ≠ .ident) :
    Does (fun _ w t t' => w = [.of kind] ∧ t' = t) (do let _ ← expect kind) := by
  refine (does_expect_bind kind h fun _ => does_pure ()).mono ?_
  rintro _ _ t _ ⟨_, rfl, -, rfl, rfl⟩
  exact ⟨rfl, rfl⟩

/-- A step, with what is answered after it, passes the token looked at. -/
theorem passes_of_run_move_bind {a b : α} {token : Token} {s s' : Parser}
    (hlook : s.look = some token) (h : Result.bind (move.run s) (fun _ => pure a) = .ok b s') :
    a = b ∧ ∃ u, s.Passes u s' ∧ u.map Token.terminal = [token.terminal] ∧
      s'.symbols = s.symbols := by
  have hreads := readsFrom_move hlook
  have hkept := (tableInvariant s.symbols).moves s token hlook rfl
  cases hr : move.run s with
  | ok _ s₁ =>
    rw [hr] at h hreads hkept
    cases h
    obtain ⟨u, hu, hmem⟩ := hreads
    exact ⟨rfl, u, hu, hmem, hkept⟩
  | error e s₁ =>
    rw [hr] at h
    cases h

/-- The name that is read is the one that is answered. -/
theorem does_expect_ident :
    Does (fun token w t t' => w = [.name token.text] ∧ t' = t) (expect .ident) := by
  intro s token s' hrun
  by_cases h : s.look.map Token.kind = some .ident
  · obtain ⟨next, hlook, hkind⟩ := Option.map_eq_some_iff.1 h
    rw [← hkind, run_expect hlook] at hrun
    obtain ⟨rfl, u, hu, hword, hsymbols⟩ := passes_of_run_move_bind hlook hrun
    exact ⟨u, hu, by rw [hword, Token.terminal_of_eq hkind], hsymbols⟩
  · rw [run_expect_of_ne h] at hrun
    cases hrun

theorem does_lookup (name : String) : Does (.reading 1) (lookup name) :=
  does_reading (reads_lookup name) fun t => (tableInvariant t).looksUp name

theorem does_requireBool (ty : Ty) (what : String) : Does (.reading 1) (requireBool ty what) :=
  does_reading (reads_requireBool ty what) fun _ => Invariant.keeps_requireBool ty what

/-! ### Operations of the table -/

theorem symbols_of_run_onSymbols {operation : SymbolTable → SymbolTable.Response α} {a : α}
    {s s' : Parser} (h : (onSymbols operation).run s = .ok a s') :
    (operation s.symbols).result = .ok a ∧ s'.symbols = (operation s.symbols).table := by
  cases hr : (operation s.symbols).result with
  | ok a =>
    rw [run_onSymbols_ok hr] at h
    cases h
    exact ⟨rfl, rfl⟩
  | error refusal =>
    rw [run_onSymbols_error hr] at h
    cases refusal <;> cases h

theorem exists_ok_of_bind_pure {r : Result α} {s : Parser}
    (h : Result.bind r (fun _ => pure ()) = .ok () s) : ∃ a, r = .ok a s := by
  cases r with
  | ok a s => cases h; exact ⟨a, rfl⟩
  | error e s => cases h

theorem does_enterScope (hint : Option String) :
    Does (fun _ w t t' => w = [] ∧ t' = (t.enter hint).table) (enterScope hint) := by
  refine does_of_run (reads_enterScope hint) fun s _ s' hrun w hw => ⟨hw, ?_⟩
  rw [enterScope, run_bind] at hrun
  obtain ⟨scope, hscope⟩ := exists_ok_of_bind_pure hrun
  exact (symbols_of_run_onSymbols hscope).2

theorem does_leaveScope : Does (fun _ w t t' => w = [] ∧ t' = t.leave.table) leaveScope :=
  does_of_run reads_leaveScope fun _ _ _ hrun _ hw => ⟨hw, (symbols_of_run_onSymbols hrun).2⟩

theorem does_declare (name : String) (ty : Ty) :
    Does (fun _ w t t' => w = [] ∧ t.Takes (Declaration.named ty [name]) t')
      (declare name ty) := by
  refine does_of_run (reads_declare name ty) fun s _ s' hrun w hw => ⟨hw, ?_⟩
  rw [run_declare] at hrun
  obtain ⟨entry, hentry⟩ := exists_ok_of_bind_pure hrun
  obtain ⟨hresult, hsymbols⟩ := symbols_of_run_onSymbols hentry
  exact hsymbols ▸ SymbolTable.takes_declare hresult

/-! ### Declarations -/

theorem does_typeSpec : Does (fun ty w t t' => ∃ type : TypeName, type.ty = ty ∧
    w = [.of type.kind] ∧ t' = t) typeSpec := by
  intro s ty s' hrun
  simp only [typeSpec, run_bind, run_lookKind?, bind_ok] at hrun
  cases hty : (s.look.map Token.kind).bind Kind.declaredType? with
  | none =>
    rw [hty] at hrun
    cases hrun
  | some ty' =>
    rw [hty] at hrun
    simp only [run_bind] at hrun
    obtain ⟨kind, hkind, htype⟩ := Option.bind_eq_some_iff.1 hty
    obtain ⟨token, hlook, rfl⟩ := Option.map_eq_some_iff.1 hkind
    obtain ⟨type, hkind, rfl⟩ := Kind.declaredType?_eq_some_iff.1 htype
    obtain ⟨rfl, u, hu, hword, hsymbols⟩ := passes_of_run_move_bind hlook hrun
    refine ⟨u, hu, type, rfl, ?_, hsymbols⟩
    rw [hword, Token.terminal_of_ne hkind.symm (by cases type <;> decide)]

theorem does_declaredName (ty : Ty) :
    Does (fun _ w t t' => ∃ name, w = [.name name] ∧ t.Takes (Declaration.named ty [name]) t')
      (declaredName ty) := by
  refine (does_expect_ident.bind fun token => does_declare token.text ty).mono ?_
  rintro _ _ t t' ⟨token, _, _, _, rfl, ⟨rfl, rfl⟩, rfl, htakes⟩
  exact ⟨token.text, rfl, htakes⟩

theorem does_identList (ty : Ty) : Does (fun _ w t t' => ∃ first others,
    w = [.name first] ++ Decl.othersYield others ∧
      t.Takes (Declaration.named ty (first :: others)) t') (identList ty) := by
  have hstep : Does (fun _ w t t' => ∃ name, w = [.of .comma, .name name] ∧
      t.Takes (Declaration.named ty [name]) t') (identStep ty) := by
    refine (does_expect_bind .comma (by decide) fun _ => does_declaredName ty).mono ?_
    rintro _ _ t t' ⟨_, rfl, name, rfl, htakes⟩
    exact ⟨name, rfl, htakes⟩
  have hothers : Does (fun _ w t t' => ∃ others, w = Decl.othersYield others ∧
      t.Takes (Declaration.named ty others) t')
      (whileLooking (· = .comma) () fun _ _ => identStep ty) := by
    refine does_whileLooking (fun t => ⟨[], rfl, .refl t⟩) ?_ fun _ => hstep
    rintro _ _ t t₁ t' ⟨name, rfl, htakes⟩ ⟨others, rfl, htakes'⟩
    exact ⟨name :: others, rfl, htakes.trans htakes'⟩
  refine ((does_declaredName ty).bind fun _ => hothers).mono ?_
  rintro _ _ t t' ⟨_, _, _, _, rfl, ⟨first, rfl, htakes⟩, others, rfl, htakes'⟩
  exact ⟨first, others, rfl, htakes.trans htakes'⟩

/-- The effect of a list of declarations, which may be empty. -/
def Effect.taking : Effect Unit :=
  fun _ w t t' => ∃ decls : List Decl, decls.flatMap Decl.yield = w ∧
    t.Takes (Decl.declared decls) t'

theorem does_decl :
    Does (fun _ w t t' => ∃ d : Decl, d.yield = w ∧ t.Takes d.declarations t') decl := by
  refine (does_typeSpec.bind fun ty => does_expect_bind .colon (by decide) fun _ =>
    (does_identList ty).bind fun _ => does_expect_last .semicolon (by decide)).mono ?_
  rintro _ _ t t' ⟨_, _, _, _, rfl, ⟨type, rfl, rfl, rfl⟩, _, rfl, _, _, _, _, rfl,
    ⟨first, others, rfl, htakes⟩, rfl, rfl⟩
  exact ⟨⟨type, first, others⟩, by simp [Decl.yield], htakes⟩

theorem does_declList : Does .taking declList := by
  have hothers : Does .taking (whileLooking Kind.beginsDecl () fun _ _ => decl) := by
    refine does_whileLooking (fun t => ⟨[], rfl, .refl t⟩) ?_ fun _ => does_decl
    rintro _ _ t t₁ t' ⟨d, rfl, htakes⟩ ⟨decls, rfl, htakes'⟩
    exact ⟨d :: decls, rfl, htakes.trans htakes'⟩
  refine (does_decl.bind fun _ => hothers).mono ?_
  rintro _ _ t t' ⟨_, _, _, _, rfl, ⟨d, rfl, htakes⟩, decls, rfl, htakes'⟩
  exact ⟨d :: decls, rfl, htakes.trans htakes'⟩

theorem does_optionalDecls : Does .taking optionalDecls := by
  refine does_looking_bind fun b => ?_
  split
  · exact does_declList
  · refine (does_pure ()).mono ?_
    rintro _ _ t _ ⟨-, rfl, ht⟩
    exact ⟨[], rfl, ht ▸ .refl t⟩

/-! ### Expressions -/

section Expressions

variable {inner : Parsing Ty} (hinner : Reads (ExprForm.language .expression) inner)
  (hspares : Spares inner)
include hinner hspares

theorem does_simpleExpr : Does (.reading (ExprForm.language .simpleExpr)) (simpleExpr inner) :=
  does_reading (reads_simpleExpr hinner) fun t => Invariant.keeps_simpleExpr (hspares t)

theorem does_expression : Does (.reading (ExprForm.language .expression)) (expression inner) :=
  does_reading (reads_expression hinner) fun t => Invariant.keeps_expression (hspares t)

end Expressions

/-! ### Statements -/

/-- The effect of a statement or a list of statements: the bodies within it are noted. -/
def Effect.noting (form : StmtForm) : Effect Unit :=
  fun _ w t t' => ∃ s : Stmt form, s.yield = w ∧ t.Notes s.sites t'

/-- The effect of a body whose scope is called by a hint: it is noted with those within it. -/
def Effect.notingBody (hint : String) : Effect Unit :=
  fun _ w t t' => ∃ body : Stmt .body, body.yield = w ∧
    t.Notes (fun level => ⟨hint, level + 1, body.decls⟩ :: body.sites (level + 1)) t'

/-- The nested parts of statements do what they should. -/
structure NestedDoes (nested : Nested) : Prop where
  inner : Reads (ExprForm.language .expression) nested.inner
  spares : Spares nested.inner
  body (kind : BodyKind) : Does (.notingBody kind.hint) (nested.body kind)

variable {nested : Nested}

theorem does_assignStmt (hnested : NestedDoes nested) :
    Does (.noting .stmt) (assignStmt nested.inner) := by
  have hcheck (token : Token) (target value : Ty) : Does (fun _ w t t' => w = [] ∧ t' = t)
      (if value = target then pure () else
        failSemantic (.assignment token.text target value) : Parsing Unit) := by
    split
    · exact (does_pure ()).mono fun _ _ _ _ h => h.2
    · exact does_failSemantic _
  refine (does_expect_ident.bind fun token => (does_lookup token.text).skip fun target =>
    does_expect_bind .assign (by decide) fun _ =>
      (does_simpleExpr hnested.inner hnested.spares).after fun value =>
        hcheck token target value).mono ?_
  rintro _ _ t _ ⟨token, _, _, _, rfl, ⟨rfl, rfl⟩, _, rfl, _, ⟨value, rfl⟩, _, rfl, rfl, rfl⟩
  exact ⟨.assign token.text value, by simp [Stmt.yield], .refl _⟩

theorem does_readStmt : Does (.noting .stmt) readStmt := by
  refine (does_expect_bind .kwIn (by decide) fun _ =>
    does_expect_bind .leftParen (by decide) fun _ => does_expect_ident.bind fun token =>
      (does_lookup token.text).skip fun _ => does_expect_last .rightParen (by decide)).mono ?_
  rintro _ _ t _ ⟨_, rfl, _, rfl, token, _, _, _, rfl, ⟨rfl, rfl⟩, rfl, rfl⟩
  exact ⟨.read token.text, by simp [Stmt.yield], .refl _⟩

theorem does_writeStmt (hnested : NestedDoes nested) :
    Does (.noting .stmt) (writeStmt nested.inner) := by
  have hwritable : Does (.reading writableLanguage) (writable nested.inner) := by
    refine does_looking_bind fun b => ?_
    split
    · refine (does_expect_last .literal (by decide)).mono ?_
      rintro _ _ t _ ⟨hw, rfl⟩
      exact ⟨.inl hw, rfl⟩
    · refine ((does_simpleExpr hnested.inner hnested.spares).after fun _ => does_pure ()).mono ?_
      rintro _ _ t _ ⟨w, hw, _, rfl, -, rfl, rfl⟩
      exact ⟨.inr (by rwa [List.append_nil]), rfl⟩
  refine (does_expect_bind .kwOut (by decide) fun _ =>
    does_expect_bind .leftParen (by decide) fun _ => hwritable.after fun _ =>
      does_expect_last .rightParen (by decide)).mono ?_
  rintro _ _ t _ ⟨_, rfl, _, rfl, _, rfl | ⟨value, rfl⟩, _, rfl, rfl, rfl⟩
  · exact ⟨.writeLiteral, by simp [Stmt.yield], .refl _⟩
  · exact ⟨.write value, by simp [Stmt.yield], .refl _⟩

theorem does_ifStmt (hnested : NestedDoes nested) : Does (.noting .stmt) (ifStmt nested) := by
  -- After the first body there is the end, or another body and the end.
  have hrest : Does (fun _ w t t' => (w = [.of .kwEnd] ∧ t' = t) ∨ ∃ other : Stmt .body,
      w = [.of .kwElse] ++ (other.yield ++ [.of .kwEnd]) ∧
        t.Notes (fun level => ⟨"if_else", level + 1, other.decls⟩ :: other.sites (level + 1)) t')
      (do
        if ← looking (· = .kwElse) then
          let _ ← expect .kwElse
          nested.body .ifElse
        let _ ← expect .kwEnd) := by
    refine does_looking_bind fun b => ?_
    have hend := does_expect_last .kwEnd (by decide)
    split
    · refine (does_expect_bind .kwElse (by decide) fun _ =>
        (hnested.body .ifElse).bind fun _ => hend).mono ?_
      rintro _ _ t t' ⟨_, rfl, _, _, _, _, rfl, ⟨other, rfl, hnotes⟩, rfl, rfl⟩
      exact .inr ⟨other, rfl, hnotes⟩
    · exact hend.mono fun _ _ _ _ h => .inl h
  refine (does_expect_bind .kwIf (by decide) fun _ =>
    (does_expression hnested.inner hnested.spares).after fun ty =>
      (does_requireBool ty "'if' condition").skip fun _ =>
        does_expect_bind .kwThen (by decide) fun _ =>
          (hnested.body .ifThen).bind fun _ => hrest).mono ?_
  rintro _ _ t t' ⟨_, rfl, _, ⟨c, rfl⟩, _, rfl, _, rfl, _, _, _, _, rfl, ⟨body, rfl, hnotes⟩,
    ⟨rfl, rfl⟩ | ⟨other, rfl, hnotes'⟩⟩
  · exact ⟨.ifThen c body, by simp [Stmt.yield], hnotes⟩
  · exact ⟨.ifElse c body other, by simp [Stmt.yield], hnotes.trans hnotes'⟩

theorem does_whileStmt (hnested : NestedDoes nested) : Does (.noting .stmt) (whileStmt nested) := by
  refine (does_expect_bind .kwWhile (by decide) fun _ =>
    (does_expression hnested.inner hnested.spares).after fun ty =>
      (does_requireBool ty "'while' condition").skip fun _ =>
        does_expect_bind .kwDo (by decide) fun _ =>
          (hnested.body .whileBody).bind fun _ => does_expect_last .kwEnd (by decide)).mono ?_
  rintro _ _ t t' ⟨_, rfl, _, ⟨c, rfl⟩, _, rfl, _, rfl, _, _, _, _, rfl, ⟨body, rfl, hnotes⟩, rfl,
    rfl⟩
  exact ⟨.whileDo c body, by simp [Stmt.yield], hnotes⟩

theorem does_repeatStmt (hnested : NestedDoes nested) :
    Does (.noting .stmt) (repeatStmt nested) := by
  refine (does_expect_bind .kwRepeat (by decide) fun _ => (hnested.body .repeatBody).bind fun _ =>
    does_expect_bind .kwUntil (by decide) fun _ =>
      (does_expression hnested.inner hnested.spares).after fun ty =>
        does_requireBool ty "'until' condition").mono ?_
  rintro _ _ t t' ⟨_, rfl, _, _, _, _, rfl, ⟨body, rfl, hnotes⟩, _, rfl, _, ⟨c, rfl⟩, _, rfl, rfl,
    rfl⟩
  exact ⟨.repeatUntil body c, by simp [Stmt.yield], hnotes⟩

theorem does_stmt (hnested : NestedDoes nested) : Does (.noting .stmt) (stmt nested) := by
  refine does_lookKind?_bind fun kind => ?_
  split
  · exact does_failSyntax _
  · exact does_assignStmt hnested
  · exact does_ifStmt hnested
  · exact does_whileStmt hnested
  · exact does_repeatStmt hnested
  · exact does_readStmt
  · exact does_writeStmt hnested
  · exact does_failSyntax _

theorem does_stmtList (hnested : NestedDoes nested) :
    Does (.noting .stmtList) (stmtList nested) := by
  have hstep : Does (fun _ w t t' => ∃ s : Stmt .stmt, w = [.of .semicolon] ++ s.yield ∧
      t.Notes s.sites t') (stmtStep nested) := by
    refine (does_expect_bind .semicolon (by decide) fun _ => does_stmt hnested).mono ?_
    rintro _ _ t t' ⟨_, rfl, s, rfl, hnotes⟩
    exact ⟨s, rfl, hnotes⟩
  -- The rest of a list is nothing, or a semicolon and a list.
  have hrest : Does (fun _ w t t' => (w = [] ∧ t' = t) ∨ ∃ rest : Stmt .stmtList,
      w = [.of .semicolon] ++ rest.yield ∧ t.Notes rest.sites t')
      (whileLooking (· = .semicolon) () fun _ _ => stmtStep nested) := by
    refine does_whileLooking (fun t => .inl ⟨rfl, rfl⟩) ?_ fun _ => hstep
    rintro _ _ t t₁ t' ⟨s, rfl, hnotes⟩ (⟨rfl, rfl⟩ | ⟨rest, rfl, hnotes'⟩)
    · exact .inr ⟨.last s, by simp [Stmt.yield], hnotes⟩
    · exact .inr ⟨.cons s rest, by simp [Stmt.yield], hnotes.trans hnotes'⟩
  rw [stmtList_eq]
  refine ((does_stmt hnested).bind fun _ => hrest).mono ?_
  rintro _ _ t t' ⟨_, _, _, _, rfl, ⟨s, rfl, hnotes⟩, ⟨rfl, rfl⟩ | ⟨rest, rfl, hnotes'⟩⟩
  · exact ⟨.last s, by simp [Stmt.yield], hnotes⟩
  · exact ⟨.cons s rest, by simp [Stmt.yield], hnotes.trans hnotes'⟩

theorem does_block (hnested : NestedDoes nested) (hint : Option String) :
    Does (.notingBody (SymbolTable.stem hint)) (block nested hint) := by
  refine ((does_enterScope hint).bind fun _ => does_optionalDecls.bind fun _ =>
    (does_stmtList hnested).bind fun _ => does_leaveScope).mono ?_
  rintro _ _ t _ ⟨_, _, _, _, rfl, ⟨rfl, rfl⟩, _, _, _, _, rfl, ⟨decls, rfl, htakes⟩,
    _, _, _, _, rfl, ⟨stmts, rfl, hnotes⟩, rfl, rfl⟩
  exact ⟨.block decls stmts, by simp [Stmt.yield], SymbolTable.notes_body htakes hnotes⟩

theorem spares_parenthesized (budget : Nat) : Spares (parenthesized budget) :=
  fun _ => Invariant.keeps_parenthesized budget

theorem does_body (budget : Nat) (kind : BodyKind) :
    Does (.notingBody kind.hint) (body budget kind) := by
  induction budget using body.induct generalizing kind with
  | case1 budget ih =>
    have hstem : SymbolTable.stem (some kind.hint) = kind.hint := by cases kind <;> rfl
    exact hstem ▸ does_block ⟨reads_parenthesized budget, spares_parenthesized budget, ih⟩
      (some kind.hint)
  | case2 budget h =>
    rw [body]
    · rintro s _ _ ⟨⟩
    · exact h

/-- The nested parts within any budget do what they should. -/
theorem nestedDoes (budget : Nat) : NestedDoes (Parsing.nested budget) :=
  ⟨reads_parenthesized budget, spares_parenthesized budget, does_body budget⟩

/-! ### Programs -/

/-- The effect of a program: its declarations are taken, its statements noted, and the scope that
    it stands in is closed. -/
def Effect.elaborating : Effect Unit :=
  fun _ w t t' => ∃ p : Program, p.yield = w ∧ ∃ t₁ t₂ : SymbolTable,
    t.Takes (Decl.declared p.decls) t₁ ∧ t₁.Notes p.stmts.sites t₂ ∧ t' = t₂.leave.table

theorem does_parse (budget : Nat) : Does .elaborating (parse (Parsing.nested budget)) := by
  have hend : Does (fun _ w t t' => w = [] ∧ t' = t.leave.table) (do
      if (← get).look.isSome then failSyntax .endOfText
      leaveScope) := by
    intro s _ s' hrun
    rw [run_bind, EStateM.run_get, bind_ok] at hrun
    split at hrun
    · cases hrun
    · exact does_leaveScope s _ s' hrun
  have hprogram : Does (fun _ w t t' => ∃ p : Program, p.yield = w ∧ ∃ t₁ : SymbolTable,
      t.Takes (Decl.declared p.decls) t₁ ∧ t₁.Notes p.stmts.sites t')
      (program (Parsing.nested budget)) := by
    refine (does_expect_bind .kwProgram (by decide) fun _ => does_optionalDecls.bind fun _ =>
      does_expect_bind .kwBegin (by decide) fun _ =>
        (does_stmtList (nestedDoes budget)).bind fun _ =>
          does_expect_last .kwEnd (by decide)).mono ?_
    rintro _ _ t t' ⟨_, rfl, _, _, _, _, rfl, ⟨decls, rfl, htakes⟩, _, rfl, _, _, _, _, rfl,
      ⟨stmts, rfl, hnotes⟩, rfl, rfl⟩
    exact ⟨⟨decls, stmts⟩, by simp [Program.yield], _, htakes, hnotes⟩
  refine (hprogram.bind fun _ => hend).mono ?_
  rintro _ _ t _ ⟨_, _, _, _, rfl, ⟨p, rfl, t₁, htakes, hnotes⟩, rfl, rfl⟩
  exact ⟨p, (List.append_nil _).symm, t₁, _, htakes, hnotes, rfl⟩

end Parsing

end MiniPascal
