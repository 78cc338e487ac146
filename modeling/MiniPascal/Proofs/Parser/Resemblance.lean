import MiniPascal.Proofs.Parser.Simulation
import MiniPascal.Proofs.Tokenization
import MiniPascal.Proofs.Translation

/-!
# Streams that resemble each other

Two streams resemble each other if their tokens are alike one by one, and are so where the
streams end or fail. What counts as alike is a `Resemblance`: tokens of one kind may differ
in their texts, but the names among them come to the same in two translations; and so may the
lines. Two parsers that read such streams do the same all along, and their symbol tables come
to the same in the two translations.

So the checks of two texts with tokens that are alike end alike
(`Resemblance.outcomes_compile`).
-/

namespace MiniPascal

open Parsing

/-- What counts as alike in two streams: tokens that are related, and names and lines that come
    to the same when those of the first are translated one way and those of the second
    another. Every name of the first is like some name. -/
structure Resemblance where
  left : Translation
  right : Translation
  total (name : String) : ∃ name', left.name name = right.name name'
  tokens : Token → Token → Prop
  kind {token token' : Token} : tokens token token' → token.kind = token'.kind
  name {token token' : Token} : tokens token token' → token.kind = .ident →
    left.name token.text = right.name token'.text

namespace Resemblance

variable (R : Resemblance)

/-- Names are alike. -/
def Names (name name' : String) : Prop :=
  R.left.name name = R.right.name name'

/-- Lines are alike. -/
def Lines (line line' : Option Int) : Prop :=
  R.left.line line = R.right.line line'

/-- Symbol tables are alike. -/
def Tables (table table' : SymbolTable) : Prop :=
  table.translate R.left = table'.translate R.right

/-- Streams are alike, token by token. Nothing is said of what comes after a failure. -/
inductive Streams : List Scan → List Scan → Prop
  | nil : Streams [] []
  | ending {after after' : Lexer} : R.Lines (some after.line) (some after'.line) →
    Streams [⟨.ok none, after⟩] [⟨.ok none, after'⟩]
  | failure (failure : ScanFailure) {after after' : Lexer} {scans scans' : List Scan} :
    R.Lines (some after.line) (some after'.line) →
    Streams (⟨.error failure, after⟩ :: scans) (⟨.error failure, after'⟩ :: scans')
  | token {token token' : Token} {after after' : Lexer} {scans scans' : List Scan} :
    R.tokens token token' → R.Lines (some after.line) (some after'.line) →
    Streams scans scans' →
    Streams (⟨.ok (some token), after⟩ :: scans) (⟨.ok (some token'), after'⟩ :: scans')

/-- Causes are alike. -/
inductive Causes : Cause → Cause → Prop
  | lexical (cause : LexicalCause) : Causes (.lexical cause) (.lexical cause)
  | syntactic (expectation : Expectation) {found found' : Option Token} :
    Option.Rel R.tokens found found' →
    Causes (.syntactic expectation found) (.syntactic expectation found')
  | semantic {cause cause' : SemanticCause} : CausesAlike R.Names cause cause' →
    Causes (.semantic cause) (.semantic cause')

/-- Faults are alike. -/
structure Faults (fault fault' : Fault) : Prop where
  cause : R.Causes fault.cause fault'.cause
  line : R.Lines fault.line fault'.line

/-- Outcomes are alike. -/
inductive Outcomes : Except Abort Verdict → Except Abort Verdict → Prop
  | accepted {table table' : SymbolTable} : R.Tables table table' →
    Outcomes (.ok (.accepted table)) (.ok (.accepted table'))
  | rejected {fault fault' : Fault} : R.Faults fault fault' →
    Outcomes (.ok (.rejected fault)) (.ok (.rejected fault'))
  | aborted (abort : Abort) : Outcomes (.error abort) (.error abort)

/-- Parsers are alike. -/
structure Parsers (s s' : Parser) : Prop where
  pending : R.Streams s.pending s'.pending
  look : Option.Rel R.tokens s.look s'.look
  line : R.Lines (some s.line) (some s'.line)
  symbols : R.Tables s.symbols s'.symbols

/-- Interruptions are alike, with the states they leave. -/
inductive Stops : Interrupt → Parser → Interrupt → Parser → Prop
  | fault {fault fault' : Fault} (s s' : Parser) : R.Faults fault fault' →
    Stops (.fault fault) s (.fault fault') s'
  | abort (abort : Abort) (s s' : Parser) : Stops (.abort abort) s (.abort abort) s'
  | tooDeep {s s' : Parser} : R.Parsers s s' → Stops .tooDeep s .tooDeep s'

/-- Being alike. Neither run is ever lost. -/
def likeness : Likeness where
  states := R.Parsers
  names := R.Names
  stops := R.Stops
  lost _ := False

variable {R} {α β : Type} {s s' : Parser}

/-- Where only the same tokens and the same names are alike, only the same causes are. -/
theorem Causes.eq (htokens : R.tokens = Eq) (hnames : R.Names = Eq) {cause cause' : Cause}
    (h : R.Causes cause cause') : cause = cause' := by
  cases h with
  | lexical => rfl
  | syntactic expectation hfound =>
    rw [htokens] at hfound
    cases hfound with
    | none => rfl
    | some h => exact congrArg _ (congrArg some h)
  | semantic hcause =>
    rw [hnames] at hcause
    exact congrArg _ hcause.eq

theorem map_kind {look look' : Option Token} (h : Option.Rel R.tokens look look') :
    look.map Token.kind = look'.map Token.kind := by
  cases h with
  | none => rfl
  | some htoken => exact congrArg some (R.kind htoken)

theorem Parsers.atNext (hs : R.Parsers s s') {next next' : Option Token} {line line' : Nat}
    {pending pending' : List Scan} (hnext : Option.Rel R.tokens next next')
    (hline : R.Lines (some line) (some line')) (hpending : R.Streams pending pending') :
    R.Parsers (Parsing.atNext s next line pending) (Parsing.atNext s' next' line' pending') :=
  ⟨hpending, hnext, hline, hs.symbols⟩

theorem stops_failure (failure : ScanFailure) (s s' : Parser) {line line' : Nat}
    (hline : R.Lines (some line) (some line')) :
    R.likeness.Results ((failScan line failure : Parsing α).run s)
      ((failScan line' failure : Parsing α).run s') := by
  cases failure with
  | lexical cause => exact .fault s s' ⟨.lexical cause, hline⟩
  | _ => exact .abort _ s s'

theorem respects_move : R.likeness.Respects move move where
  alike {s s'} hs := by
    right
    have hpending := hs.pending
    generalize h : s.pending = scans at hpending
    generalize h' : s'.pending = scans' at hpending
    cases hpending with
    | nil =>
      rw [run_move_nil h, run_move_nil h']
      exact ⟨rfl, hs.atNext .none hs.line .nil⟩
    | ending hlast =>
      rw [run_move_ok h, run_move_ok h']
      exact ⟨rfl, hs.atNext .none hlast .nil⟩
    | failure failure hlast =>
      rw [run_move_error h, run_move_error h']
      exact stops_failure failure _ _ hlast
    | token htoken hlast hrest =>
      rw [run_move_ok h, run_move_ok h']
      exact ⟨rfl, hs.atNext (.some htoken) hlast hrest⟩
  lost := id

/-! ### Operations of the symbol table -/

theorem results_failRefusal_bind {refusal refusal' : SymbolTable.Refusal} {f f' : α → Parsing β}
    (h : refusal.translate R.left = refusal'.translate R.right) (s s' : Parser) :
    R.likeness.Results (Result.bind ((failRefusal refusal).run s) f)
      (Result.bind ((failRefusal refusal').run s') f') := by
  cases refusal with
  | redeclared name line =>
    cases refusal' with
    | redeclared name' line' =>
      obtain ⟨hname, hline⟩ := SymbolTable.Refusal.redeclared.inj h
      exact .fault s s' ⟨.semantic (.redeclared hname), hline⟩
    | _ => cases h
  | noScopeToLeave =>
    cases refusal' with
    | noScopeToLeave => exact .abort _ s s'
    | _ => cases h
  | noScopeOpen =>
    cases refusal' with
    | noScopeOpen => exact .abort _ s s'
    | _ => cases h

/-- Two operations on tables that are alike come to one response in the two translations. What
    goes on with it is alike if it is so for values that come to the same. -/
theorem results_onSymbols_bind {operation operation' : SymbolTable → SymbolTable.Response α}
    {value value' : α → α} {r : SymbolTable.Response α} {f f' : α → Parsing β}
    (hs : R.Parsers s s') (h : (operation s.symbols).Translates R.left value r)
    (h' : (operation' s'.symbols).Translates R.right value' r)
    (hf : ∀ a a', value a = value' a' → R.likeness.Respects (f a) (f' a')) :
    R.likeness.Results ((onSymbols operation >>= f).run s)
      ((onSymbols operation' >>= f').run s') := by
  have hresult := h.result.symm.trans h'.result
  have hanswered : R.Parsers (answered s (operation s.symbols))
      (answered s' (operation' s'.symbols)) :=
    ⟨hs.pending, hs.look, hs.line, h.table.symm.trans h'.table⟩
  rw [run_bind, run_bind]
  cases hr : (operation s.symbols).result with
  | ok a =>
    cases hr' : (operation' s'.symbols).result with
    | ok a' =>
      rw [hr, hr'] at hresult
      rw [run_onSymbols_ok hr, run_onSymbols_ok hr']
      exact ((hf a a' (Except.ok.inj hresult)).alike hanswered).resolve_left id
    | error refusal' =>
      rw [hr, hr'] at hresult
      cases hresult
  | error refusal =>
    cases hr' : (operation' s'.symbols).result with
    | ok a' =>
      rw [hr, hr'] at hresult
      cases hresult
    | error refusal' =>
      rw [hr, hr'] at hresult
      rw [run_onSymbols_error hr, run_onSymbols_error hr']
      exact results_failRefusal_bind (Except.error.inj hresult) _ _

theorem respects_enterScope (hint : Option String) :
    R.likeness.Respects (enterScope hint) (enterScope hint) where
  alike {s s'} hs := by
    have hright := s'.symbols.enter_translate R.right hint
    rw [← hs.symbols] at hright
    exact .inr (results_onSymbols_bind hs (s.symbols.enter_translate R.left hint) hright
      fun _ _ _ => .pure ())
  lost := id

theorem respects_leaveScope : R.likeness.Respects leaveScope leaveScope where
  alike {s s'} hs := by
    have hright := s'.symbols.leave_translate R.right
    rw [← hs.symbols] at hright
    have h := results_onSymbols_bind hs (s.symbols.leave_translate R.left) hright
      fun _ _ _ => .pure ()
    exact .inr (by rwa [bind_pure_unit] at h)
  lost := id

theorem respects_declare {name name' : String} (ty : Ty) (hname : R.Names name name') :
    R.likeness.Respects (declare name ty) (declare name' ty) where
  alike {s s'} hs := by
    have hright := s'.symbols.declare_translate R.right name' ty (some s'.line)
    rw [← hs.symbols, ← hs.line, ← hname] at hright
    rw [run_declare, run_declare, ← run_bind, ← run_bind]
    exact .inr (results_onSymbols_bind hs (s.symbols.declare_translate R.left name ty _) hright
      fun _ _ _ => .pure ())
  lost := id

theorem respects_lookup {name name' : String} (hname : R.Names name name') :
    R.likeness.Respects (lookup name) (lookup name') where
  alike {s s'} hs := by
    have hright := s'.symbols.lookup_translate R.right name'
    rw [← hs.symbols, ← hname] at hright
    refine .inr (results_onSymbols_bind hs (s.symbols.lookup_translate R.left name) hright
      fun entry entry' hentry => ?_)
    cases entry with
    | none =>
      obtain rfl : entry' = none := Option.map_eq_none_iff.1 hentry.symm
      exact ⟨fun hs => .inr (.fault _ _ ⟨.semantic (.undeclared hname), hs.line⟩), id⟩
    | some entry =>
      obtain ⟨entry', rfl, hsame⟩ := Option.map_eq_some_iff.1 hentry.symm
      have hty : (entry'.translate R.right).ty = (entry.translate R.left).ty :=
        congrArg Entry.ty hsame
      have hty : entry'.ty = entry.ty := hty
      simp only [hty]
      exact .pure _
  lost := id

/-- The operations of the parser respect a resemblance. -/
def simulation (R : Resemblance) : Simulation where
  toLikeness := R.likeness
  kind hs := map_kind hs.look
  name hs hlook hlook' hkind := by
    have htoken := hs.look
    rw [hlook, hlook', Option.rel_some_some] at htoken
    exact R.name htoken hkind
  total := R.total
  moves := respects_move
  failsSyntax expectation hs := .fault _ _ ⟨.syntactic expectation hs.look, hs.line⟩
  failsSemantic hs hcause := .fault _ _ ⟨.semantic hcause, hs.line⟩
  failsTooDeep hs := .tooDeep hs
  enters := respects_enterScope
  leaves := respects_leaveScope
  declares := respects_declare
  looksUp := respects_lookup

/-! ### Checks -/

/-- Rows of tokens are alike. -/
def Rows (R : Resemblance) (row row' : Nat × Token) : Prop :=
  R.Lines (some row.1) (some row'.1) ∧ R.tokens row.2 row'.2

/-- Tokens of texts are alike, and so are their ends. -/
structure Tokenizations (R : Resemblance) (tokens tokens' : Tokenization) : Prop where
  rows : List.Forall₂ R.Rows tokens.rows tokens'.rows
  failure : tokens.failure = tokens'.failure
  line : R.Lines (some tokens.lexer.line) (some tokens'.lexer.line)

/-- Lexers whose tokens are alike yield streams that are. -/
theorem streams_scans {lexer lexer' : Lexer}
    (h : R.Tokenizations lexer.tokenization lexer'.tokenization) :
    R.Streams lexer.scans lexer'.scans := by
  obtain ⟨hrows, hfailure, hline⟩ := h
  fun_induction Lexer.scans lexer generalizing lexer' with
  | case1 lexer after hscan =>
    rw [Lexer.tokenization_of_end hscan] at hrows hfailure hline
    rcases hscan' : lexer'.scan with ⟨failure' | (_ | token'), after'⟩
    · rw [Lexer.tokenization_of_error hscan'] at hfailure
      cases hfailure
    · rw [Lexer.tokenization_of_end hscan'] at hline
      rw [@Lexer.scans_of_end lexer' (by rw [hscan']), hscan']
      exact .ending hline
    · rw [Lexer.tokenization_of_token hscan'] at hrows
      cases hrows
  | case2 lexer token after hscan ih =>
    rw [Lexer.tokenization_of_token hscan] at hrows hfailure hline
    rcases hscan' : lexer'.scan with ⟨failure' | (_ | token'), after'⟩
    · rw [Lexer.tokenization_of_error hscan'] at hrows
      cases hrows
    · rw [Lexer.tokenization_of_end hscan'] at hrows
      cases hrows
    · rw [Lexer.tokenization_of_token hscan'] at hrows hfailure hline
      rw [@Lexer.scans_of_ne lexer' (by simp [hscan']), hscan']
      obtain ⟨⟨hlast, htoken⟩, hrest⟩ := List.forall₂_cons.1 hrows
      exact .token htoken hlast (ih hrest hfailure hline)
  | case3 lexer failure after hscan ih =>
    rw [Lexer.tokenization_of_error hscan] at hrows hfailure hline
    rcases hscan' : lexer'.scan with ⟨failure' | (_ | token'), after'⟩
    · rw [Lexer.tokenization_of_error hscan'] at hfailure hline
      rw [@Lexer.scans_of_ne lexer' (by simp [hscan']), hscan']
      cases hfailure
      exact .failure failure hline
    · rw [Lexer.tokenization_of_end hscan'] at hfailure
      cases hfailure
    · rw [Lexer.tokenization_of_token hscan'] at hrows
      cases hrows

/-- Runs that end alike make checks that do. -/
theorem outcomes_ofRun {r r' : Result Unit} (h : R.likeness.Results r r') :
    R.Outcomes (Compilation.ofRun r).outcome (Compilation.ofRun r').outcome := by
  cases r with
  | ok a s =>
    cases r' with
    | ok a' s' => exact .accepted h.2.symbols
    | error e' s' => exact h.elim
  | error e s =>
    cases r' with
    | ok a' s' => exact h.elim
    | error e' s' =>
      have h : R.Stops e s e' s' := h
      cases h with
      | fault _ _ hfault => exact .rejected hfault
      | abort abort => exact .aborted abort
      | tooDeep hs => exact .rejected ⟨.syntactic _ hs.look, hs.line⟩

/-- Streams that resemble each other are checked alike. -/
theorem outcomes_compileScans {scans scans' : List Scan} (h : R.Streams scans scans')
    (hline : R.Lines (some 1) (some 1)) :
    R.Outcomes (compileScans scans).outcome (compileScans scans').outcome := by
  have hstart : R.Parsers (.ofScans scans) (.ofScans scans') :=
    ⟨h, .none, hline, (SymbolTable.translate_empty _).trans (SymbolTable.translate_empty _).symm⟩
  rcases R.simulation.respects_check.alike hstart with hlost | hresults
  · exact hlost.elim
  · exact outcomes_ofRun hresults

/-- Texts whose tokens resemble each other are checked alike. -/
theorem outcomes_compile {text text' : String}
    (h : R.Tokenizations (tokenize text) (tokenize text')) (hline : R.Lines (some 1) (some 1)) :
    R.Outcomes (compile text).outcome (compile text').outcome :=
  outcomes_compileScans (streams_scans h) hline

end Resemblance

end MiniPascal
